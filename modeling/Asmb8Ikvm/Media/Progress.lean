import Asmb8Ikvm.Media.Daemon

/-!
# Recorded progress

Whether the counters of a record are those of the device when the record is
written. The trace of the serve loop says what the device has served and what was
last copied into the record; `View` is that reading of a trace, and every run
agrees with it. A record written at an idle poll or by the failure path is up to
date exactly when the requests handled since the last copy have served nothing.
-/

namespace Asmb8Ikvm.Media

open PyText Iusb

universe u

/-- The counters of the record are the totals of the device. -/
def Persisted.UpToDate (written : Persisted) : Prop :=
  (written.record.bytesRead, written.record.sectorsServed) = written.totals

/-- The record is written while nothing is being served: at an idle poll, or at the end. -/
def Site.atRest : Site → Bool
  | .idle | .exit | .fail => true
  | .claim | .connecting | .attached | .request => false

/-- Every record written at rest is up to date. -/
def Run.NeverStale {ρ : Type u} (run : Run ρ) : Prop :=
  ∀ written ∈ run.reports.persisted, written.site.atRest = true → written.UpToDate

variable {ρ : Type u} [Reader ρ]

/-- What a trace says of the device and of the counters in the record. -/
structure View (ρ : Type u) where
  device : CDROMDevice ρ
  reported : ℕ × ℕ

namespace View

def observe (view : View ρ) : Event → View ρ
  | .request _ => { view with reported := view.device.totals }
  | .handle req => { view with device := (view.device.handle req).2 }
  | .read _ | .idle _ | .raised _ => view

def start (device : CDROMDevice ρ) (reported : ℕ × ℕ) : View ρ where
  device
  reported

end View

/-- The device after the requests of a trace have been handled. -/
def deviceAfter (device : CDROMDevice ρ) (trace : List Event) : CDROMDevice ρ :=
  (trace.foldl View.observe (View.start device device.totals)).device

/-- The counters as they were copied last. -/
def reportedAfter (device : CDROMDevice ρ) (trace : List Event) : ℕ × ℕ :=
  (trace.foldl View.observe (View.start device device.totals)).reported

/-- No request handled since the last one arrived has served anything. -/
def Quiet (device : CDROMDevice ρ) (trace : List Event) : Prop :=
  ∀ earlier req later, trace = earlier ++ .handle req :: later →
    (∀ next, .request next ∉ later) →
      (deviceAfter device (earlier ++ [.handle req])).totals =
        (deviceAfter device earlier).totals

section Views

variable (device : CDROMDevice ρ) (trace : List Event)

@[simp]
theorem deviceAfter_nil : deviceAfter device [] = device :=
  rfl

@[simp]
theorem deviceAfter_append (event : Event) :
    deviceAfter device (trace ++ [event]) =
      match event with
      | .handle req => ((deviceAfter device trace).handle req).2
      | _ => deviceAfter device trace := by
  unfold deviceAfter
  rw [List.foldl_append, List.foldl_cons, List.foldl_nil]
  cases event <;> rfl

@[simp]
theorem reportedAfter_nil : reportedAfter device [] = device.totals :=
  rfl

@[simp]
theorem reportedAfter_append (event : Event) :
    reportedAfter device (trace ++ [event]) =
      match event with
      | .request _ => (deviceAfter device trace).totals
      | _ => reportedAfter device trace := by
  unfold deviceAfter reportedAfter
  rw [List.foldl_append, List.foldl_cons, List.foldl_nil]
  cases event <;> rfl

theorem reportedAfter_le : reportedAfter device trace ≤ (deviceAfter device trace).totals := by
  induction trace using List.reverseRecOn with
  | nil => exact le_refl _
  | append_singleton trace event ih =>
      rw [deviceAfter_append, reportedAfter_append]
      cases event with
      | request req => exact le_refl _
      | handle req => exact ih.trans (CDROMDevice.totals_le_handle req)
      | read | idle | raised => exact ih

/-- The splits of a trace at an event, when one more event is added. -/
theorem append_singleton_eq_append_cons {before : List Event} {last event : Event}
    {after : List Event} (split : trace ++ [last] = before ++ event :: after) :
    (after = [] ∧ last = event ∧ trace = before) ∨
      ∃ rest, after = rest ++ [last] ∧ trace = before ++ event :: rest := by
  rcases List.eq_nil_or_concat after with rfl | ⟨rest, final, rfl⟩
  · left
    have same := List.append_inj' split rfl
    exact ⟨rfl, List.singleton_inj.mp same.2, same.1⟩
  · right
    rw [List.concat_eq_append, ← List.cons_append, ← List.append_assoc] at split
    have same := List.append_inj' split rfl
    refine ⟨rest, ?_, same.1⟩
    rw [List.concat_eq_append, same.2]

theorem quiet_append_handle (req : Packet) :
    Quiet device (trace ++ [.handle req]) ↔
      Quiet device trace ∧
        (deviceAfter device (trace ++ [.handle req])).totals =
          (deviceAfter device trace).totals := by
  constructor
  · intro quiet
    refine ⟨?_, quiet trace req [] rfl (by simp)⟩
    intro earlier other later split noRequest
    refine quiet earlier other (later ++ [.handle req]) (by simp [split]) ?_
    intro next mem
    simp only [List.mem_append, List.mem_singleton, reduceCtorEq, or_false] at mem
    exact noRequest next mem
  · rintro ⟨quiet, last⟩ earlier other later split noRequest
    rcases append_singleton_eq_append_cons trace split with ⟨-, same, rfl⟩ | ⟨rest, rfl, same⟩
    · cases same
      exact last
    · refine quiet earlier other rest same ?_
      intro next mem
      exact noRequest next (List.mem_append_left _ mem)

theorem quiet_append_of_ne {event : Event} (noHandle : ∀ req, event ≠ .handle req)
    (noRequest : ∀ req, event ≠ .request req) :
    Quiet device (trace ++ [event]) ↔ Quiet device trace := by
  constructor
  · intro quiet earlier req later split none
    refine quiet earlier req (later ++ [event]) (by simp [split]) ?_
    intro next mem
    rcases List.mem_append.mp mem with mem | mem
    · exact none next mem
    · exact noRequest next (List.mem_singleton.mp mem).symm
  · intro quiet earlier req later split none
    rcases append_singleton_eq_append_cons trace split with ⟨-, same, -⟩ | ⟨rest, rfl, same⟩
    · exact absurd same (noHandle req)
    · exact quiet earlier req rest same fun next mem => none next (List.mem_append_left _ mem)

theorem quiet_append_request (req : Packet) : Quiet device (trace ++ [.request req]) := by
  intro earlier other later split none
  rcases append_singleton_eq_append_cons trace split with ⟨-, same, -⟩ | ⟨rest, rfl, -⟩
  · cases same
  · exact absurd (List.mem_append_right _ (List.mem_singleton_self _)) (none req)

/-- The counters copied last are the totals exactly when nothing has been served since. -/
theorem reportedAfter_eq_iff :
    reportedAfter device trace = (deviceAfter device trace).totals ↔ Quiet device trace := by
  induction trace using List.reverseRecOn with
  | nil =>
      refine iff_of_true rfl ?_
      intro earlier req later split
      simp at split
  | append_singleton trace event ih =>
      cases event with
      | request req => exact iff_of_true (by simp) (quiet_append_request device trace req)
      | handle req =>
          rw [quiet_append_handle, ← ih, deviceAfter_append, reportedAfter_append]
          dsimp only
          have below := reportedAfter_le device trace
          have grows := @CDROMDevice.totals_le_handle _ (deviceAfter device trace) _ req
          constructor
          · intro same
            have equal := le_antisymm below (grows.trans_eq same.symm)
            exact ⟨equal, same.symm.trans equal⟩
          · rintro ⟨equal, unchanged⟩
            exact equal.trans unchanged.symm
      | read | idle | raised =>
          rw [quiet_append_of_ne device trace (by simp) (by simp), ← ih, deviceAfter_append,
            reportedAfter_append]

end Views

omit [Reader ρ] in
/-- A request copies the totals into the record before anything else can happen. -/
theorem Daemon.onRequest_spec (world : World) (req : Packet) (daemon : Daemon ρ) :
    (daemon.onRequest world req).2.device = daemon.device ∧
      ((daemon.onRequest world req).2.reports.state.bytesRead,
        (daemon.onRequest world req).2.reports.state.sectorsServed) = daemon.device.totals ∧
      ∃ written, (daemon.onRequest world req).2.reports.persisted =
          daemon.reports.persisted ++ written ∧
        ∀ record ∈ written, record.site = .request := by
  rcases daemon.onRequest_cases world req with ⟨_, rfl, traceWrites, ⟨exn, -, outcome⟩ | outcome⟩
  · rw [outcome]
    exact ⟨rfl, rfl, [], (List.append_nil _).symm, by simp⟩
  · rw [outcome]
    exact ⟨rfl, rfl, [_], rfl, by simp⟩

/-- The daemon agrees with the trace of its serve loop, and its records at idle polls are up
to date exactly when the trace is quiet at every idle poll. -/
structure Agrees (device : CDROMDevice ρ) (trace : List Event) (daemon : Daemon ρ) : Prop where
  served : daemon.device = deviceAfter device trace
  counters : (daemon.reports.state.bytesRead, daemon.reports.state.sectorsServed) =
    reportedAfter device trace
  idle : (∀ written ∈ daemon.reports.persisted, written.site.atRest = true → written.UpToDate) ↔
    ∀ before position after, trace = before ++ .idle position :: after → Quiet device before

/-- The idle polls of a trace to which an event is added. -/
theorem forall_idle_append {trace : List Event} {event : Event} {P : List Event → Prop} :
    (∀ before position after, trace ++ [event] = before ++ .idle position :: after → P before) ↔
      (∀ before position after, trace = before ++ .idle position :: after → P before) ∧
        ∀ position, event = .idle position → P trace := by
  constructor
  · intro every
    refine ⟨?_, ?_⟩
    · intro before position after split
      exact every before position (after ++ [event]) (by simp [split])
    · rintro position rfl
      exact every trace position [] rfl
  · rintro ⟨earlier, last⟩ before position after split
    rcases append_singleton_eq_append_cons trace split with ⟨-, same, rfl⟩ | ⟨rest, -, same⟩
    · exact last position same
    · exact earlier before position rest same

namespace Agrees

variable {world : World} {device : CDROMDevice ρ} {trace : List Event} {daemon : Daemon ρ}

/-- An event that is neither a request, nor its handling, nor an idle poll. -/
theorem log (agrees : Agrees device trace daemon) {event : Event}
    (noRequest : ∀ req, event ≠ .request req) (noHandle : ∀ req, event ≠ .handle req)
    (noIdle : ∀ position, event ≠ .idle position) :
    Agrees device (trace ++ [event]) daemon := by
  refine ⟨?_, ?_, ?_⟩
  · rw [agrees.served, deviceAfter_append]
    cases event <;> simp_all
  · rw [agrees.counters, reportedAfter_append]
    cases event <;> simp_all
  · rw [agrees.idle, forall_idle_append]
    exact ⟨fun every => ⟨every, fun position same => absurd same (noIdle position)⟩, And.left⟩

theorem handle (agrees : Agrees device trace daemon) (req : Packet) :
    Agrees device (trace ++ [.handle req]) ((Daemon.callbacks world).handle req daemon).2 := by
  refine ⟨?_, ?_, ?_⟩
  · rw [deviceAfter_append, ← agrees.served]
    rfl
  · rw [reportedAfter_append]
    exact agrees.counters
  · rw [forall_idle_append]
    exact agrees.idle.trans ⟨fun every => ⟨every, by simp⟩, And.left⟩

theorem onIdle (agrees : Agrees device trace daemon) (position : ℕ) :
    Agrees device (trace ++ [.idle position]) (daemon.onIdle world) := by
  refine ⟨?_, ?_, ?_⟩
  · rw [deviceAfter_append]
    exact agrees.served
  · rw [reportedAfter_append]
    exact agrees.counters
  · have written : (daemon.onIdle world).reports.persisted = daemon.reports.persisted ++
        [{ site := .idle
           record := (daemon.onIdle world).reports.state
           totals := daemon.device.totals
           history := (daemon.onIdle world).reports.history }] := rfl
    have counters : ((daemon.onIdle world).reports.state.bytesRead,
        (daemon.onIdle world).reports.state.sectorsServed) = reportedAfter device trace :=
      agrees.counters
    rw [forall_idle_append, written, List.forall_mem_append, agrees.idle]
    refine and_congr_right fun _ => ?_
    simp only [List.mem_singleton, forall_eq, Site.atRest, Persisted.UpToDate, counters,
      agrees.served, forall_const, Event.idle.injEq, forall_eq']
    exact reportedAfter_eq_iff device trace

theorem onRequest (agrees : Agrees device trace daemon) (req : Packet) :
    Agrees device (trace ++ [.request req]) (daemon.onRequest world req).2 := by
  rcases daemon.onRequest_spec world req with ⟨same, counters, written, persisted, sites⟩
  refine ⟨?_, ?_, ?_⟩
  · rw [same, deviceAfter_append]
    exact agrees.served
  · rw [counters, reportedAfter_append, agrees.served]
  · rw [forall_idle_append, persisted, List.forall_mem_append, agrees.idle]
    refine and_congr_right fun _ => iff_of_true ?_ (by simp)
    intro record mem rest
    rw [sites record mem] at rest
    cases rest

/-- The callbacks of the daemon keep the agreement. -/
theorem keeps (world : World) (device : CDROMDevice ρ) :
    (Daemon.callbacks world).Keeps (Agrees device) where
  check agrees := ⟨agrees.served, agrees.counters, agrees.idle⟩
  read _ agrees := agrees.log (by simp) (by simp) (by simp)
  idle position agrees := agrees.onIdle position
  request req agrees := agrees.onRequest req
  handle req agrees := agrees.handle req
  raised _ agrees := agrees.log (by simp) (by simp) (by simp)

end Agrees

/-- The condition under which a run of the serve loop leaves no stale record: nothing has been
served since the last copy at any idle poll, nor when the loop ends in an exception. -/
structure Served.Settled (served : Served ρ) : Prop where
  idle : ∀ before position after, served.trace = before ++ .idle position :: after →
    Quiet served.device before
  failure : ∀ exn, served.result = .error exn → Quiet served.device served.trace

section Runs

variable (world : World) (table : CharTable)

theorem Reports.persisted_failWith (knownSecrets : List String) (totals : ℕ × ℕ) (exn : Exn)
    (reports : Reports) :
    ∃ record, (reports.failWith world table knownSecrets totals exn).persisted =
        reports.persisted ++ [{ site := .fail, record, totals, history := reports.history }] ∧
      record.bytesRead = reports.state.bytesRead ∧
      record.sectorsServed = reports.state.sectorsServed := by
  unfold failWith
  cases exn <;> exact ⟨_, rfl, rfl, rfl⟩

theorem conclude_neverStale_iff (knownSecrets : List String) {device : CDROMDevice ρ}
    {trace : List Event} {daemon : Daemon ρ} (agrees : Agrees device trace daemon)
    (result : Except Exn ServeResult) :
    (∀ written ∈ (daemon.conclude world table knownSecrets result).persisted,
        written.site.atRest = true → written.UpToDate) ↔
      Served.Settled { device, result, trace, daemon } := by
  cases result with
  | error exn =>
      rcases daemon.reports.persisted_failWith world table knownSecrets daemon.device.totals exn
        with ⟨record, persisted, bytes, sectors⟩
      dsimp only [Daemon.conclude]
      rw [persisted, List.forall_mem_append, agrees.idle]
      simp only [List.mem_singleton, forall_eq, Site.atRest, Persisted.UpToDate, bytes, sectors,
        agrees.counters, agrees.served, forall_const, reportedAfter_eq_iff]
      constructor
      · rintro ⟨idle, failure⟩
        exact ⟨idle, fun _ _ => failure⟩
      · intro settled
        exact ⟨settled.idle, settled.failure exn rfl⟩
  | ok outcome =>
      have persisted : (daemon.conclude world table knownSecrets (.ok outcome)).persisted =
          daemon.reports.persisted ++
            [{ site := .exit
               record := (daemon.finish world outcome).state
               totals := daemon.device.totals
               history := (daemon.finish world outcome).history }] := rfl
      rw [persisted, List.forall_mem_append, agrees.idle]
      simp only [List.mem_singleton, forall_eq, Site.atRest, forall_const]
      constructor
      · rintro ⟨idle, -⟩
        exact ⟨idle, fun _ failed => by cases failed⟩
      · intro settled
        exact ⟨settled.idle, rfl⟩

theorem serve_neverStale_iff (knownSecrets : List String) (session : Session)
    (device : CDROMDevice ρ) {reports : Reports}
    (counters : (reports.state.bytesRead, reports.state.sectorsServed) = device.totals)
    (fresh : ∀ written ∈ reports.persisted, written.site.atRest = false) :
    (serve world table knownSecrets session device reports).NeverStale ↔
      ∀ served ∈ (serve world table knownSecrets session device reports).served,
        served.Settled := by
  have start : Agrees device []
      { device, reports := reports.enter world .attached .attached device.totals } := by
    refine ⟨rfl, counters, iff_of_true ?_ (by simp)⟩
    intro written mem rest
    rcases List.mem_append.mp mem with earlier | last
    · rw [fresh written earlier] at rest
      cases rest
    · cases List.mem_singleton.mp last
      cases rest
  have agrees := (Agrees.keeps world device).serveForever session start
  refine (conclude_neverStale_iff world table knownSecrets agrees _).trans ?_
  constructor
  · rintro settled _ ⟨⟩
    exact settled
  · intro settled
    exact settled _ rfl

/-- A run that fails before it serves has nothing to report. -/
theorem failWith_upToDate (knownSecrets : List String) (exn : Exn) {reports : Reports}
    (counters : (reports.state.bytesRead, reports.state.sectorsServed) = (0, 0))
    (fresh : ∀ written ∈ reports.persisted, written.site.atRest = false) :
    ∀ written ∈ (reports.failWith world table knownSecrets (0, 0) exn).persisted,
      written.site.atRest = true → written.UpToDate := by
  rcases reports.persisted_failWith world table knownSecrets (0, 0) exn with
    ⟨record, persisted, bytes, sectors⟩
  intro written mem rest
  rw [persisted] at mem
  rcases List.mem_append.mp mem with earlier | last
  · rw [fresh written earlier] at rest
    cases rest
  · cases List.mem_singleton.mp last
    rw [Persisted.UpToDate, bytes, sectors]
    exact counters

/-- A run of the daemon leaves no stale record at rest exactly when nothing has been served
since the last request arrived at every idle poll, and when the serve loop ends in an
exception. -/
theorem runDaemon_neverStale_iff (password : String) (startup : Startup ρ)
    (sessionId endpoint : String) (pid : ℤ) (image now : String) :
    (runDaemon world table password startup
        (initialState sessionId endpoint pid image now)).NeverStale ↔
      ∀ served ∈ (runDaemon world table password startup
        (initialState sessionId endpoint pid image now)).served, served.Settled := by
  have claimed : ∀ written ∈ (Reports.persist world .claim (0, 0)
      { state := initialState sessionId endpoint pid image now }).persisted,
      written.site.atRest = false := by
    rintro written ⟨⟩
    · rfl
    · contradiction
  have connecting : ∀ written ∈ ((Reports.persist world .claim (0, 0)
      { state := initialState sessionId endpoint pid image now }).enter world .connecting
        .connecting (0, 0)).persisted, written.site.atRest = false := by
    intro written mem
    rcases List.mem_append.mp mem with earlier | last
    · exact claimed written earlier
    · cases List.mem_singleton.mp last
      rfl
  unfold runDaemon Run.NeverStale
  dsimp only
  rcases attempt_cases world table password startup (Reports.persist world .claim (0, 0)
    { state := initialState sessionId endpoint pid image now }) with
    ⟨opened, knownSecrets, exn, run⟩ | ⟨opened, knownSecrets, exn, run⟩ |
      ⟨reader, token, session, -, -, -, run⟩
  · rw [run]
    exact iff_of_true (failWith_upToDate world table knownSecrets exn rfl claimed) (by simp)
  · rw [run]
    exact iff_of_true (failWith_upToDate world table knownSecrets exn rfl connecting) (by simp)
  · rw [run]
    exact serve_neverStale_iff world table [password, token] session (CDROMDevice.new reader) rfl
      connecting

end Runs

/-- One block is read, nothing more arrives for a while, and the record says that nothing
has been read. -/
theorem runDaemon_stale_at_idle :
    ¬ (runDaemon calmWorld asciiTable "secret"
      (smallStartup (ByteStream.leftover (CDROMDevice.readFirstBlock.header.marshal ++
        CDROMDevice.readFirstBlock.payload) [.timeout]))
      (initialState "install" "bmc:5120" 4711 "/srv/small.iso"
        "2026-08-08T00:00:00+00:00")).NeverStale := by
  unfold Run.NeverStale Persisted.UpToDate
  decide +kernel

end Asmb8Ikvm.Media

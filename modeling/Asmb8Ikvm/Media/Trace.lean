import Asmb8Ikvm.Media.Daemon

/-!
# The read trace

The trace log of a run against the device it is a log of. The command block of a
request is decoded twice, by the daemon for the trace log and by the device, and
the two agree on every packet. The entry of a request is written before the
device handles it, and the blocks are counted by the device, so the two sums meet
again when the request has been handled.
-/

namespace Asmb8Ikvm.Media

open PyText Iusb Bytes

universe u

/-- The packets that reach `on_request`. -/
def requested (trace : List Event) : List Packet :=
  trace.filterMap fun
    | .request req => some req
    | _ => none

/-- The packets that reach the device. -/
def handled (trace : List Event) : List Packet :=
  trace.filterMap fun
    | .handle req => some req
    | _ => none

/-- The blocks of all entries. -/
def tracedBlocks (trace : List TraceEntry) : ℕ :=
  (trace.map TraceEntry.blocks).sum

theorem traceEntry_of_short {req : Packet} (short : req.payload.length ≤ opcodeOffset) :
    traceEntry req = none := by
  rw [traceEntry, req.cdb_eq_nil short]

theorem traceEntry_of_long {req : Packet} (long : opcodeOffset < req.payload.length) :
    traceEntry req =
      if req.opcode = scsiRead10 ∨ req.opcode = scsiRead12 then
        some { opcode := "0x" ++ hex2 req.opcode, lba := req.lba, blocks := req.blocks }
      else none := by
  have starts := req.cdb_eq_cons long
  unfold traceEntry
  split
  case h_1 empty =>
    rw [starts] at empty
    cases empty
  case h_2 op rest isCdb =>
    rw [isCdb] at starts
    cases starts
    by_cases read10 : req.opcode = scsiRead10
    · simp [read10, Packet.lba, Packet.blocks]
    · simp [read10, Packet.lba, Packet.blocks]

theorem requested_append (trace : List Event) (event : Event) :
    requested (trace ++ [event]) = requested trace ++ requested [event] := by
  simp [requested]

theorem handled_append (trace : List Event) (event : Event) :
    handled (trace ++ [event]) = handled trace ++ handled [event] := by
  simp [handled]

theorem entries_append (packets : List Packet) (req : Packet) :
    (packets ++ [req]).filterMap traceEntry =
      packets.filterMap traceEntry ++ (traceEntry req).toList := by
  rw [List.filterMap_append, List.filterMap_cons]
  cases traceEntry req <;> rfl

/-- READ(10) or READ(12), in a payload that has an opcode. -/
def IsRead (req : Packet) : Prop :=
  opcodeOffset < req.payload.length ∧ (req.opcode = scsiRead10 ∨ req.opcode = scsiRead12)

theorem isSome_traceEntry (req : Packet) : (traceEntry req).isSome = true ↔ IsRead req := by
  by_cases long : opcodeOffset < req.payload.length
  · rw [traceEntry_of_long long]
    by_cases isRead : req.opcode = scsiRead10 ∨ req.opcode = scsiRead12
    · simp [IsRead, isRead, long]
    · simp [IsRead, isRead]
  · rw [traceEntry_of_short (by omega)]
    simp [IsRead, long]

variable {ρ : Type u} [Reader ρ]

/-- The trace log and the device decode a request alike: an entry has the address and the
number of blocks the device is asked to read, and without an entry nothing is read. -/
def DecodedAlike (req : Packet) (device : CDROMDevice ρ) : Prop :=
  match traceEntry req with
  | some entry =>
      device.handle req =
        (((device.read entry.lba entry.blocks).1.bind (CDROMDevice.buildResponse req)).map some,
          (device.read entry.lba entry.blocks).2)
  | none => (device.handle req).2 = device

theorem decodedAlike (req : Packet) (device : CDROMDevice ρ) : DecodedAlike req device := by
  unfold DecodedAlike
  by_cases long : opcodeOffset < req.payload.length
  · rw [traceEntry_of_long long, CDROMDevice.handle_of_long long]
    by_cases isRead : req.opcode = scsiRead10 ∨ req.opcode = scsiRead12
    · rw [if_pos isRead, CDROMDevice.dispatch_read isRead]
    · rw [if_neg isRead]
      rw [not_or] at isRead
      simp only [CDROMDevice.dispatch, if_neg isRead.1, if_neg isRead.2]
      split_ifs <;> rfl
  · rw [traceEntry_of_short (by omega), CDROMDevice.handle_of_short (by omega)]

/-- Between the rounds: the entries are those of the requests that have been handled, and
the device has counted their blocks. -/
structure Traced (trace : List Event) (daemon : Daemon ρ) : Prop where
  entries : daemon.trace = (handled trace).filterMap traceEntry
  requests : requested trace = handled trace
  blocks : daemon.device.nBlocks = tracedBlocks daemon.trace

/-- Before a request is handled: its entry is there, its blocks are not. -/
structure Awaiting (req : Packet) (trace : List Event) (daemon : Daemon ρ) : Prop where
  entries : daemon.trace = (handled trace ++ [req]).filterMap traceEntry
  requests : requested trace = handled trace ++ [req]
  blocks : daemon.device.nBlocks = tracedBlocks ((handled trace).filterMap traceEntry)

/-- When the loop has ended: a request that has not been handled is the last one, and its
entry could not be written. -/
structure Closed (world : World) (result : Except Exn ServeResult) (trace : List Event)
    (daemon : Daemon ρ) : Prop where
  entries : daemon.trace = (handled trace).filterMap traceEntry
  requests : requested trace = handled trace ∨
    ∃ req n exn, requested trace = handled trace ++ [req] ∧
      world.traceWrite n = .error exn ∧ result = .error exn
  blocks : ∀ outcome, result = .ok outcome → daemon.device.nBlocks = tracedBlocks daemon.trace

namespace Traced

variable {world : World} {trace : List Event} {daemon : Daemon ρ} {req : Packet}

omit [Reader ρ] in
/-- Other events than requests do not matter. -/
theorem log (traced : Traced trace daemon) {event : Event} (noRequest : requested [event] = [])
    (notHandled : handled [event] = []) : Traced (trace ++ [event]) daemon := by
  refine ⟨?_, ?_, traced.blocks⟩
  · rw [handled_append, notHandled, List.append_nil, traced.entries]
  · rw [requested_append, handled_append, noRequest, notHandled, traced.requests]

omit [Reader ρ] in
/-- The parts of the daemon that are not in the trace or in the device do not matter. -/
theorem of_eq (traced : Traced trace daemon) {other : Daemon ρ}
    (entries : other.trace = daemon.trace) (device : other.device = daemon.device) :
    Traced trace other := by
  refine ⟨?_, traced.requests, ?_⟩
  · rw [entries, traced.entries]
  · rw [device, entries, traced.blocks]

omit [Reader ρ] in
theorem request (traced : Traced trace daemon) {later : Daemon ρ}
    (returned : daemon.onRequest world req = (.ok (), later)) :
    Awaiting req (trace ++ [.request req]) later := by
  rcases daemon.onRequest_cases world req with
    ⟨received, rfl, traceWrites, ⟨exn, -, outcome⟩ | outcome⟩
  · rw [returned] at outcome
    cases outcome
  · rw [returned] at outcome
    cases outcome
    refine ⟨?_, ?_, ?_⟩
    · rw [handled_append, entries_append]
      change daemon.trace ++ (traceEntry req).toList = _
      rw [traced.entries]
      simp [handled]
    · rw [requested_append, handled_append, traced.requests]
      simp [requested, handled]
    · rw [handled_append]
      change daemon.device.nBlocks = _
      rw [traced.blocks, traced.entries]
      simp [handled]

omit [Reader ρ] in
theorem requestRaises (traced : Traced trace daemon) {exn : Exn} {later : Daemon ρ}
    (raised : daemon.onRequest world req = (.error exn, later)) :
    Closed world (.error exn) (trace ++ [.request req] ++ [.raised exn]) later := by
  rcases daemon.onRequest_cases world req with
    ⟨received, rfl, traceWrites, ⟨failure, writing, outcome⟩ | outcome⟩
  · rw [raised] at outcome
    cases outcome
    refine ⟨?_, .inr ⟨req, _, exn, ?_, writing, rfl⟩, by simp⟩
    · change daemon.trace = _
      rw [handled_append, handled_append, traced.entries]
      simp [handled]
    · rw [requested_append, requested_append, handled_append, handled_append, traced.requests]
      simp [requested, handled]
  · rw [raised] at outcome
    cases outcome

omit [Reader ρ] in
theorem ended (traced : Traced trace daemon) (result : Except Exn ServeResult) :
    Closed world result trace daemon :=
  ⟨traced.entries, .inl traced.requests, fun _ _ => traced.blocks⟩

end Traced

/-- A handled request has been counted by the device as its entry says. -/
theorem nBlocks_handle {device later : CDROMDevice ρ} {req : Packet} {answer : Option Bytes}
    (answered : device.handle req = (.ok answer, later)) :
    later.nBlocks = device.nBlocks + tracedBlocks (traceEntry req).toList := by
  have decoded := decodedAlike req device
  unfold DecodedAlike at decoded
  cases isEntry : traceEntry req with
  | none =>
      rw [isEntry, answered] at decoded
      dsimp only at decoded
      rw [decoded]
      rfl
  | some entry =>
      rw [isEntry, answered] at decoded
      dsimp only at decoded
      rcases reading : device.read entry.lba entry.blocks with ⟨exn | data, afterRead⟩
      · rw [reading] at decoded
        cases congrArg Prod.fst decoded
      · rw [reading] at decoded
        have read : later = afterRead := congrArg Prod.snd decoded
        rw [read, CDROMDevice.nBlocks_read reading]
        simp [tracedBlocks]

namespace Awaiting

variable {world : World} {trace : List Event} {daemon : Daemon ρ} {req : Packet}

theorem handle (awaiting : Awaiting req trace daemon) {answer : Option Bytes} {later : Daemon ρ}
    (answered : (Daemon.callbacks world).handle req daemon = (.ok answer, later)) :
    Traced (trace ++ [.handle req]) later := by
  rcases handling : daemon.device.handle req with ⟨result, device⟩
  have same : (result, { daemon with device }) = (.ok answer, later) := by
    rw [← answered]
    simp only [Daemon.callbacks, handling]
  cases same
  have counted := nBlocks_handle handling
  refine ⟨?_, ?_, ?_⟩
  · rw [handled_append]
    exact awaiting.entries
  · rw [requested_append, handled_append, awaiting.requests]
    exact List.append_nil _
  · rw [counted, awaiting.blocks, awaiting.entries]
    rw [entries_append]
    simp [tracedBlocks]

theorem handleRaises (awaiting : Awaiting req trace daemon) {exn : Exn} {later : Daemon ρ}
    (raised : (Daemon.callbacks world).handle req daemon = (.error exn, later)) :
    Closed world (.error exn) (trace ++ [.handle req] ++ [.raised exn]) later := by
  have same : later.trace = daemon.trace := by
    have step := congrArg (fun outcome => outcome.2.trace) raised
    exact step.symm
  refine ⟨?_, .inl ?_, by simp⟩
  · rw [same, awaiting.entries, handled_append, handled_append]
    simp [handled]
  · rw [requested_append, requested_append, handled_append, handled_append, awaiting.requests]
    simp [requested, handled]

end Awaiting

/-- The callbacks of the daemon keep the trace log. -/
theorem callbacks_ensure (world : World) :
    (Daemon.callbacks world : Callbacks (Daemon ρ)).Ensures Traced Awaiting (Closed world) where
  check traced := traced.of_eq rfl rfl
  read _ traced := traced.log rfl rfl
  idle _ traced := (traced.log rfl rfl).of_eq rfl rfl
  request _ _ traced returned := traced.request returned
  handle _ _ _ awaiting answered := awaiting.handle answered
  requestRaises _ _ _ traced raised := traced.requestRaises raised
  handleRaises _ _ _ awaiting raised := awaiting.handleRaises raised
  raised exn traced := (traced.log rfl rfl).ended (.error exn)
  ended result traced := traced.ended result

section Runs

variable (world : World) (table : CharTable)

theorem serve_traces (knownSecrets : List String) (session : Session) (reader : ρ)
    (reports : Reports) :
    ∀ served ∈ (serve world table knownSecrets session (CDROMDevice.new reader) reports).served,
      Closed world served.result served.trace served.daemon ∧
        ∀ outcome, served.result = .ok outcome →
          ∃ last, (serve world table knownSecrets session (CDROMDevice.new reader)
              reports).reports.persisted.getLast? = some last ∧
            last.record.state = .detached ∧
            last.record.sectorsServed = tracedBlocks served.daemon.trace := by
  have start : Traced [] ({ device := CDROMDevice.new reader
                            reports := reports.enter world .attached .attached
                              (CDROMDevice.new reader).totals } : Daemon ρ) :=
    ⟨rfl, rfl, rfl⟩
  have closed := (callbacks_ensure world).serveForever session start
  unfold serve
  dsimp only
  generalize session.serveForever (Daemon.callbacks world)
    ({ device := CDROMDevice.new reader
       reports := reports.enter world .attached .attached (CDROMDevice.new reader).totals } :
      Daemon ρ) = outcome at closed
  rcases outcome with ⟨result, final⟩
  rintro _ ⟨⟩
  refine ⟨closed, ?_⟩
  intro outcome returned
  dsimp only at returned
  subst returned
  refine ⟨_, List.getLast?_concat, rfl, ?_⟩
  exact closed.blocks outcome rfl

/-- The trace log decodes every request as the device does. In every run its entries are those
of the requests that were handled; only a request whose entry could not be written has not
been handled; and after a clean exit the recorded number of sectors is the sum of the
entries. -/
theorem runDaemon_traces (password : String) (startup : Startup ρ) (initial : Record) :
    (∀ req, ((traceEntry req).isSome = true ↔ IsRead req) ∧
      ∀ device : CDROMDevice ρ, DecodedAlike req device) ∧
    ∀ served ∈ (runDaemon world table password startup initial).served,
      served.daemon.trace = (handled served.trace).filterMap traceEntry ∧
      (requested served.trace = handled served.trace ∨
        ∃ req n exn, requested served.trace = handled served.trace ++ [req] ∧
          world.traceWrite n = .error exn ∧ served.result = .error exn) ∧
      ∀ outcome, served.result = .ok outcome →
        ∃ last, (runDaemon world table password startup initial).reports.persisted.getLast? =
            some last ∧
          last.record.state = .detached ∧
          last.record.sectorsServed = tracedBlocks served.daemon.trace := by
  refine ⟨fun req => ⟨isSome_traceEntry req, fun device => decodedAlike req device⟩, ?_⟩
  unfold runDaemon
  dsimp only
  rcases attempt_cases world table password startup
    (Reports.persist world .claim (0, 0) { state := initial }) with
    ⟨opened, knownSecrets, exn, run⟩ | ⟨opened, knownSecrets, exn, run⟩ |
      ⟨reader, token, session, -, -, -, run⟩
  · rw [run]
    simp
  · rw [run]
    simp
  · rw [run]
    intro served mem
    rcases serve_traces world table [password, token] session reader _ served mem with
      ⟨closed, recorded⟩
    exact ⟨closed.entries, closed.requests, recorded⟩

end Runs

/-- The BMC reads the first block, polls the drive, reads a block with READ(12) and ends the
redirection. -/
def bothReads : List ByteStream.Arrival :=
  ByteStream.leftover
      (CDROMDevice.readFirstBlock.header.marshal ++ CDROMDevice.readFirstBlock.payload)
    (.timeout :: ByteStream.leftover
      (({ dataPacketLen := 10 } : Header).marshal ++ List.replicate 10 0)
    (ByteStream.leftover (({ dataPacketLen := 29 } : Header).marshal ++
      (List.replicate 9 0 ++ [0xA8, 0, 0, 0, 0, 0, 0, 0, 0, 1] ++ List.replicate 10 0))
    (ByteStream.leftover
      (({ dataPacketLen := 10 } : Header).marshal ++ (List.replicate 9 0 ++ [opKillRedir])) [])))

/-- The run of a daemon that meets them. -/
def bothReadsRun : Run (Cache FileReader) :=
  runDaemon calmWorld asciiTable "secret" (smallStartup bothReads)
    (initialState "install" "bmc:5120" 4711 "/srv/small.iso" "2026-08-08T00:00:00+00:00")

/-- Both reads are in the trace log, and their blocks add up to the recorded sectors. -/
theorem runDaemon_traces_bothReads :
    ∃ served ∈ bothReadsRun.served, served.result = .ok .killed ∧
      served.daemon.trace = [{ opcode := "0x28", lba := 0, blocks := 1 },
        { opcode := "0xa8", lba := 0, blocks := 1 }] ∧
      ∃ last, bothReadsRun.reports.persisted.getLast? = some last ∧
        last.record.sectorsServed = 2 := by
  have outcome : (bothReadsRun.served.map fun served => (served.result, served.daemon.trace)) =
      some (.ok .killed, [{ opcode := "0x28", lba := 0, blocks := 1 },
        { opcode := "0xa8", lba := 0, blocks := 1 }]) := by
    decide +kernel
  rcases Option.map_eq_some_iff.mp outcome with ⟨served, isServed, values⟩
  rcases Prod.mk.inj values with ⟨killed, entries⟩
  rcases (runDaemon_traces calmWorld asciiTable "secret" (smallStartup bothReads) _).2 served
    isServed with ⟨-, -, clean⟩
  rcases clean .killed killed with ⟨last, isLast, -, sectors⟩
  refine ⟨served, isServed, killed, entries, last, isLast, ?_⟩
  rw [sectors, entries]
  rfl

end Asmb8Ikvm.Media

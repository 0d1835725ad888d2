import Asmb8Ikvm.Iusb.Session

/-!
# Frame synchronisation of the serve loop

On a stream of well-formed frames the serve loop should hand out the frames of
the stream in order, begin every read of a header at a frame boundary and call
`on_idle` at frame boundaries only. `InSync` says so of a run.

`GapTimeout` describes the streams on which the loop falls out of step: whole
frames with idle polls between them, and then a header that is separated from
its payload by a poll timeout. `serveForever_inSync_iff` is the equivalence.
-/

namespace Asmb8Ikvm.Iusb

open Bytes ByteStream

universe u

/-- The packets given to `on_request`. -/
def requests (trace : List Event) : List Packet :=
  trace.filterMap fun
    | .request packet => some packet
    | _ => none

/-- The packets given to the handler. -/
def handled (trace : List Event) : List Packet :=
  trace.filterMap fun
    | .handle packet => some packet
    | _ => none

/-- A position between two frames of a stream that starts at `base`. -/
def Boundary (frames : List WireFrame) (base position : ℕ) : Prop :=
  ∃ before after, frames = before ++ after ∧ position = base + (wireBytes before).length

/-- Headers are read and idle polls reported at frame boundaries. -/
def Event.AtBoundary (frames : List WireFrame) (base : ℕ) : Event → Prop
  | .read position | .idle position => Boundary frames base position
  | _ => True

/-- What the outcome of a run may be: a normal return, `ConnectionError_`, or the
exception of a callback. -/
def Graceful (outcome : Except Exn ServeResult) (trace : List Event) : Prop :=
  (∃ result, outcome = .ok result) ∨
    (∃ error, outcome = .error (.ikvm error) ∧ error.errorClass = .connection) ∨
    ∃ exn, outcome = .error exn ∧ .raised exn ∈ trace

/-- The run has handed out a prefix of the frames, unmodified and in order, and has kept
to the frame boundaries. -/
structure InSync (frames : List WireFrame) (base : ℕ) (outcome : Except Exn ServeResult)
    (trace : List Event) : Prop where
  requests : requests trace <+: frames.map WireFrame.packet
  handled : handled trace <+: frames.map WireFrame.packet
  boundary : ∀ event ∈ trace, event.AtBoundary frames base
  outcome : Graceful outcome trace

/-- Whole frames, none of them a kill packet, with idle polls between them, and then a
header separated from its payload by a poll timeout. -/
inductive GapTimeout : List WireFrame → List Item → Prop where
  | gap {frame : WireFrame} {frames : List WireFrame} {rest : List Item}
      (nonempty : frame.payload ≠ []) :
      GapTimeout (frame :: frames) (bytesItems frame.header ++ .timeout :: rest)
  | idle {frames : List WireFrame} {rest : List Item} (later : GapTimeout frames rest) :
      GapTimeout frames (.timeout :: rest)
  | frame {frame : WireFrame} {frames : List WireFrame} {rest : List Item}
      (alive : frame.packet.isKill = false) (later : GapTimeout frames rest) :
      GapTimeout (frame :: frames) (bytesItems frame.bytes ++ rest)

/-- The trace records that the frames `asked` have been given to `on_request` and the
frames `answered` to the handler, and it keeps to the boundaries of `frames`. -/
structure Recorded (frames : List WireFrame) (base : ℕ) (trace : List Event)
    (asked answered : List WireFrame) : Prop where
  requests : requests trace = asked.map WireFrame.packet
  handled : handled trace = answered.map WireFrame.packet
  boundary : ∀ event ∈ trace, event.AtBoundary frames base

namespace Recorded

variable {frames asked answered : List WireFrame} {base : ℕ} {trace : List Event}

theorem boundary_log (recorded : Recorded frames base trace asked answered) {event : Event}
    (atBoundary : event.AtBoundary frames base) :
    ∀ other ∈ trace ++ [event], other.AtBoundary frames base := by
  intro other otherMem
  rcases List.mem_append.mp otherMem with old | new
  · exact recorded.boundary other old
  · rw [List.mem_singleton.mp new]
    exact atBoundary

theorem log_request (recorded : Recorded frames base trace asked answered) (frame : WireFrame) :
    Recorded frames base (trace ++ [.request frame.packet]) (asked ++ [frame]) answered where
  requests := by
    rw [Iusb.requests, List.filterMap_append, List.map_append]
    exact congrArg (· ++ [frame.packet]) recorded.requests
  handled := by
    rw [Iusb.handled, List.filterMap_append]
    exact (List.append_nil _).trans recorded.handled
  boundary := recorded.boundary_log trivial

theorem log_handle (recorded : Recorded frames base trace asked answered) (frame : WireFrame) :
    Recorded frames base (trace ++ [.handle frame.packet]) asked (answered ++ [frame]) where
  requests := by
    rw [Iusb.requests, List.filterMap_append]
    exact (List.append_nil _).trans recorded.requests
  handled := by
    rw [Iusb.handled, List.filterMap_append, List.map_append]
    exact congrArg (· ++ [frame.packet]) recorded.handled
  boundary := recorded.boundary_log trivial

theorem log_other (recorded : Recorded frames base trace asked answered) (event : Event)
    (noRequest : Iusb.requests [event] = []) (noHandle : Iusb.handled [event] = [])
    (atBoundary : event.AtBoundary frames base) :
    Recorded frames base (trace ++ [event]) asked answered where
  requests := by
    rw [Iusb.requests, List.filterMap_append]
    exact (congrArg (_ ++ ·) noRequest).trans ((List.append_nil _).trans recorded.requests)
  handled := by
    rw [Iusb.handled, List.filterMap_append]
    exact (congrArg (_ ++ ·) noHandle).trans ((List.append_nil _).trans recorded.handled)
  boundary := recorded.boundary_log atBoundary

theorem inSync {outcome : Except Exn ServeResult}
    (recorded : Recorded frames base trace asked answered) (askedPrefix : asked <+: frames)
    (answeredPrefix : answered <+: frames) (graceful : Graceful outcome trace) :
    InSync frames base outcome trace where
  requests := by
    rw [recorded.requests]
    exact askedPrefix.map _
  handled := by
    rw [recorded.handled]
    exact answeredPrefix.map _
  boundary := recorded.boundary
  outcome := graceful

end Recorded

/-- The invariant of the loop: `served` has been handed out of the stream, `left` is
still to come, and no gap is among it. -/
structure InStep {σ : Type u} (frames : List WireFrame) (base : ℕ) (served left : List WireFrame)
    (s : Serving σ) : Prop where
  split : frames = served ++ left
  streamed : itemsBytes s.transport.sock.items = wireBytes left
  position : s.transport.sock.received = base + (wireBytes served).length
  noGap : ¬ GapTimeout left s.transport.sock.items
  recorded : Recorded frames base s.trace served served

section Forward

variable {σ : Type u} {calls : Callbacks σ} {deviceType : ℤ} {frames : List WireFrame} {base : ℕ}
  {served left : List WireFrame} {frame : WireFrame} {s : Serving σ}

theorem serveRequest_inStep (split : frames = served ++ frame :: left)
    (streamed : itemsBytes s.transport.sock.items = wireBytes left)
    (position : s.transport.sock.received = base + (wireBytes (served ++ [frame])).length)
    (noGap : ¬ GapTimeout left s.transport.sock.items)
    (recorded : Recorded frames base s.trace served served) :
    (s.serveRequest calls deviceType frame.packet).Satisfies
      (fun next => ∃ served left, InStep frames base served left next)
      (fun outcome final => InSync frames base outcome final.trace) := by
  have regrouped : frames = (served ++ [frame]) ++ left := by simpa using split
  have servedPrefix : served <+: frames := ⟨frame :: left, split.symm⟩
  have askedPrefix : served ++ [frame] <+: frames := ⟨left, regrouped.symm⟩
  have asked := recorded.log_request frame
  have answered := asked.log_handle frame
  unfold Serving.serveRequest
  dsimp only [Serving.log]
  split
  case h_1 exn heap _ =>
    exact (asked.log_other (.raised exn) rfl rfl trivial).inSync askedPrefix servedPrefix
      (.inr (.inr ⟨exn, rfl, by simp⟩))
  case h_2 heap _ =>
    split
    case h_1 exn heap _ =>
      exact (answered.log_other (.raised exn) rfl rfl trivial).inSync askedPrefix
        askedPrefix (.inr (.inr ⟨exn, rfl, by simp⟩))
    case h_2 heap _ =>
      exact ⟨served ++ [frame], left, regrouped, streamed, position, noGap, answered⟩
    case h_3 payload heap _ =>
      rcases s.transport.writeFrame_cases
          (buildResponseFrame frame.packet.header payload deviceType) with
        ⟨-, text, faults, error, -, written, connection⟩ | ⟨-, written⟩
      · simp only [written]
        exact answered.inSync askedPrefix askedPrefix (.inr (.inl ⟨error, rfl, connection⟩))
      · simp only [written]
        exact ⟨served ++ [frame], left, regrouped, streamed, position, noGap, answered⟩

/-- One round of the loop keeps in step with the stream, or ends in sync with it. -/
theorem serveRound_inStep (inStep : InStep frames base served left s) :
    (s.serveRound calls deviceType).Satisfies
      (fun next => ∃ served left, InStep frames base served left next)
      (fun outcome final => InSync frames base outcome final.trace) := by
  have here : Boundary frames base s.transport.sock.received :=
    ⟨served, left, inStep.split, inStep.position⟩
  have servedPrefix : served <+: frames := ⟨left, inStep.split.symm⟩
  have recorded := inStep.recorded.log_other (.read s.transport.sock.received)
    rfl rfl here
  have reads := SocketTransport.readPacket_spec inStep.streamed
  have advances := s.transport.readPacket_advances
  unfold Serving.serveRound
  split
  case h_1 exn heap _ =>
    exact (inStep.recorded.log_other (.raised exn) rfl rfl trivial).inSync servedPrefix
      servedPrefix (.inr (.inr ⟨exn, rfl, by simp⟩))
  case h_2 heap _ => exact inStep.recorded.inSync servedPrefix servedPrefix (.inl ⟨_, rfl⟩)
  case h_3 heap _ =>
    dsimp only [Serving.log]
    generalize s.transport.readPacket = outcome at reads advances ⊢
    rcases outcome with ⟨result, transport⟩
    dsimp only at reads advances
    have streamed := inStep.streamed
    have noGap := inStep.noGap
    have position := inStep.position
    have counted := advances.received
    generalize s.transport.sock.items = items at streamed noGap counted reads
    generalize remains : transport.sock.items = rest at reads counted
    cases reads with
    | closed => exact recorded.inSync servedPrefix servedPrefix (.inl ⟨_, rfl⟩)
    | fault connection =>
        exact recorded.inSync servedPrefix servedPrefix (.inr (.inl ⟨_, rfl, connection⟩))
    | gap nonempty => exact absurd (.gap nonempty) noGap
    | idle =>
        rw [itemsBytes_timeout] at streamed counted
        have still : transport.sock.received = base + (wireBytes served).length := by omega
        have idle := recorded.log_other (.idle transport.sock.received) rfl rfl
          ⟨served, left, inStep.split, still⟩
        dsimp only
        split
        case h_1 exn heap _ =>
          exact (idle.log_other (.raised exn) rfl rfl trivial).inSync servedPrefix
            servedPrefix (.inr (.inr ⟨exn, rfl, by simp⟩))
        case h_2 heap _ =>
          refine ⟨served, left, inStep.split, ?_, still, ?_, idle⟩
          · rw [remains, streamed]
          · rw [remains]
            exact fun later => noGap (.idle later)
    | @frame frame frames' rest =>
        rw [itemsBytes_append, itemsBytes_bytesItems] at streamed counted
        have following : itemsBytes rest = wireBytes frames' :=
          List.append_cancel_left streamed
        have moved : transport.sock.received =
            base + (wireBytes (served ++ [frame])).length := by
          rw [wireBytes_append, List.length_append, wireBytes, wireBytes,
            List.flatMap_singleton]
          rw [wireBytes] at position
          rw [List.length_append] at counted
          omega
        dsimp only
        split_ifs with kill
        · exact recorded.inSync servedPrefix servedPrefix (.inl ⟨_, rfl⟩)
        · refine serveRequest_inStep inStep.split ?_ moved ?_ recorded
          · rw [remains, following]
          · rw [remains]
            exact fun later => noGap (.frame (by simpa using kill) later)

end Forward

section Gap

variable {deviceType : ℤ} {frames left : List WireFrame} {base : ℕ} {s : Serving PUnit.{u + 1}}

/-- Callbacks that never stop the loop and answer nothing. -/
def silent : Callbacks PUnit.{u + 1} where
  handle _ heap := (.ok none, heap)

theorem serveRound_silent_request {req : Packet}
    (reading : s.transport.readPacket.1 = .ok req) (alive : req.isKill = false) :
    ∃ events, s.serveRound silent deviceType =
      .again { s with transport := s.transport.readPacket.2, trace := s.trace ++ events } := by
  have outcome : s.transport.readPacket = (.ok req, s.transport.readPacket.2) :=
    Prod.ext reading rfl
  refine ⟨[.read s.transport.sock.received, .request req, .handle req], ?_⟩
  simp only [Serving.serveRound, silent, Serving.log]
  rw [outcome]
  simp [alive, Serving.serveRequest, Serving.log]

theorem serveRound_silent_idle (reading : s.transport.readPacket.1 = .error .idleTimeout) :
    s.serveRound silent deviceType =
      .again { s with
        transport := s.transport.readPacket.2
        trace := s.trace ++
          [.read s.transport.sock.received, .idle s.transport.readPacket.2.sock.received] } := by
  have outcome : s.transport.readPacket = (.error .idleTimeout, s.transport.readPacket.2) :=
    Prod.ext reading rfl
  simp only [Serving.serveRound, silent, Serving.log]
  rw [outcome]
  simp

theorem mem_trace_run {event : Event} (recorded : event ∈ s.trace) :
    event ∈ (Loop.run Serving.remaining (Serving.serveRound silent deviceType)
      (Serving.serveRound_decreases silent deviceType) s).2.trace := by
  refine Loop.run_spec (fun s : Serving PUnit => event ∈ s.trace)
    (fun _ (s : Serving PUnit) => event ∈ s.trace) ?_ recorded
  intro s recorded
  simp only [Serving.serveRound, silent, Serving.log]
  split
  · simp [Loop.Step.Satisfies, recorded]
  · simp [Loop.Step.Satisfies, recorded]
  · simp [Loop.Step.Satisfies, recorded]
  · split_ifs
    · simp [Loop.Step.Satisfies, recorded]
    · simp [Serving.serveRequest, Serving.log, Loop.Step.Satisfies, recorded]

/-- The position behind the header of a frame that has a payload is no boundary. -/
theorem not_boundary_after_header {before after : List WireFrame} {frame : WireFrame}
    (nonempty : frame.payload ≠ []) :
    ¬ Boundary (before ++ frame :: after) base
      (base + (wireBytes before).length + headerLen) := by
  rintro ⟨before', after', split, position⟩
  have payload := List.length_pos_iff.mpr nonempty
  rcases List.append_eq_append_iff.mp split with ⟨more, rfl, rest⟩ | ⟨fewer, rfl, -⟩
  · rw [wireBytes_append, List.length_append] at position
    cases more with
    | nil =>
        simp only [wireBytes_nil, List.length_nil, headerLen] at position
        omega
    | cons first more =>
        cases rest
        rw [wireBytes_cons, List.length_append, List.length_append, frame.length] at position
        omega
  · rw [wireBytes_append, List.length_append, headerLen] at position
    omega

/-- A stream with a gap makes the silent loop report an idle poll behind a header. -/
theorem gap_idle (deviceType : ℤ) (base : ℕ) (served : List WireFrame)
    {s : Serving PUnit.{u + 1}} {items : List Item} (gap : GapTimeout left items)
    (front : s.transport.sock.items = items)
    (streamed : itemsBytes items = wireBytes left)
    (position : s.transport.sock.received = base + (wireBytes served).length) :
    ∃ before frame after, left = before ++ frame :: after ∧ frame.payload ≠ [] ∧
      .idle (base + (wireBytes (served ++ before)).length + headerLen) ∈
        (Loop.run Serving.remaining (Serving.serveRound silent deviceType)
          (Serving.serveRound_decreases silent deviceType) s).2.trace := by
  induction gap generalizing s served with
  | @gap frame frames rest nonempty =>
      rcases SocketTransport.readPacket_gap nonempty front with ⟨reading, left⟩
      have counted := s.transport.readPacket_advances.received
      rw [front, left, itemsBytes_append, itemsBytes_bytesItems, itemsBytes_timeout,
        List.length_append, frame.length] at counted
      have moved : s.transport.readPacket.2.sock.received =
          base + (wireBytes served).length + headerLen := by omega
      refine ⟨[], frame, frames, rfl, nonempty, ?_⟩
      rw [Loop.run_again (serveRound_silent_idle reading), List.append_nil]
      apply mem_trace_run
      simp [moved]
  | @idle frames rest later ih =>
      rcases SocketTransport.readPacket_idle front with ⟨reading, left⟩
      have counted := s.transport.readPacket_advances.received
      rw [front, left, itemsBytes_timeout] at counted
      rw [Loop.run_again (serveRound_silent_idle reading)]
      exact ih served left streamed (by dsimp only; omega)
  | @frame frame frames rest alive later ih =>
      rcases SocketTransport.readPacket_frame front with ⟨reading, left⟩
      have counted := s.transport.readPacket_advances.received
      rw [front, left, itemsBytes_append, itemsBytes_bytesItems, List.length_append] at counted
      rw [itemsBytes_append, itemsBytes_bytesItems] at streamed
      have moved : s.transport.readPacket.2.sock.received =
          base + (wireBytes (served ++ [frame])).length := by
        rw [wireBytes_append, List.length_append, wireBytes_cons, wireBytes_nil, List.append_nil]
        rw [WireFrame.bytes] at counted
        omega
      rcases serveRound_silent_request reading alive with ⟨events, round⟩
      rw [Loop.run_again round]
      obtain ⟨before, frame', after, rfl, nonempty, idle⟩ :=
        ih (served ++ [frame])
          (s := { s with transport := s.transport.readPacket.2, trace := s.trace ++ events }) left
          (List.append_cancel_left streamed) moved
      refine ⟨frame :: before, frame', after, rfl, nonempty, ?_⟩
      simpa using idle

theorem not_inSync_of_gap {session : Session}
    (streamed : itemsBytes session.transport.sock.items = wireBytes frames)
    (gap : GapTimeout frames session.transport.sock.items) :
    ¬ InSync frames session.transport.sock.received (session.serveForever silent.{u} ⟨⟩).1
      (session.serveForever silent.{u} ⟨⟩).2.trace := by
  intro inSync
  obtain ⟨before, frame, after, rfl, nonempty, idle⟩ :=
    gap_idle session.deviceType session.transport.sock.received [] gap
      (s := { transport := session.transport, heap := ⟨⟩ }) rfl streamed rfl
  exact not_boundary_after_header nonempty (inSync.boundary _ idle)

end Gap

/-- The serve loop keeps in sync with a stream of frames, whatever its callbacks do,
exactly when it meets no gap. -/
theorem serveForever_inSync_iff {frames : List WireFrame} {session : Session}
    (streamed : itemsBytes session.transport.sock.items = wireBytes frames) :
    (∀ (σ : Type u) (calls : Callbacks σ) (heap : σ),
      InSync frames session.transport.sock.received (session.serveForever calls heap).1
        (session.serveForever calls heap).2.trace) ↔
      ¬ GapTimeout frames session.transport.sock.items := by
  constructor
  · intro inSync gap
    exact not_inSync_of_gap streamed gap (inSync PUnit silent ⟨⟩)
  · intro noGap σ calls heap
    refine Loop.run_spec (fun s : Serving σ => ∃ served left,
      InStep frames session.transport.sock.received served left s)
      (fun outcome (final : Serving σ) =>
        InSync frames session.transport.sock.received outcome final.trace) ?_ ?_
    · rintro s ⟨served, left, inStep⟩
      exact serveRound_inStep inStep
    · exact ⟨[], frames, rfl, streamed, rfl, noGap, rfl, rfl, by simp⟩

theorem GapTimeout.timeout_mem {frames : List WireFrame} {items : List Item}
    (gap : GapTimeout frames items) : .timeout ∈ items := by
  induction gap with
  | gap => simp
  | idle => simp
  | frame _ _ ih => exact List.mem_append_right _ ih

/-- A frame whose payload looks like a header. -/
def nested : WireFrame where
  header := ({ dataPacketLen := 32 } : Header).marshal
  payload := ({} : Header).marshal
  length := by decide
  signed := by decide
  announced := by decide
  bounded := by decide

/-- A session whose peer sends `nested`, with a pause behind the header if `paused`. -/
def nestedSession (paused : Bool) : Session where
  transport.sock.inbound :=
    leftover nested.header ((if paused then [.timeout] else []) ++ leftover nested.payload [])

/-- Without the pause the loop keeps in sync, and the one frame is handed out. -/
theorem serveForever_nested_inSync :
    itemsBytes (nestedSession false).transport.sock.items = wireBytes [nested] ∧
      ¬ GapTimeout [nested] (nestedSession false).transport.sock.items ∧
      ∀ (σ : Type) (calls : Callbacks σ) (heap : σ),
        InSync [nested] 0 ((nestedSession false).serveForever calls heap).1
          ((nestedSession false).serveForever calls heap).2.trace := by
  have streamed : itemsBytes (nestedSession false).transport.sock.items = wireBytes [nested] := by
    decide +kernel
  have noGap : ¬ GapTimeout [nested] (nestedSession false).transport.sock.items :=
    fun gap => absurd gap.timeout_mem (by decide +kernel)
  exact ⟨streamed, noGap, (serveForever_inSync_iff streamed).mpr noGap⟩

/-- With the pause the payload is read as a header, and what reaches the callbacks is a
packet that has never been sent. -/
theorem serveForever_nested_not_inSync :
    itemsBytes (nestedSession true).transport.sock.items = wireBytes [nested] ∧
      requests ((nestedSession true).serveForever silent.{0} ⟨⟩).2.trace =
        [{ header := {}, payload := [] }] ∧
      ¬ InSync [nested] 0 ((nestedSession true).serveForever silent.{0} ⟨⟩).1
        ((nestedSession true).serveForever silent.{0} ⟨⟩).2.trace := by
  refine ⟨by decide +kernel, by decide +kernel, ?_⟩
  intro inSync
  exact absurd inSync.requests (by decide +kernel)

end Asmb8Ikvm.Iusb

import Asmb8Ikvm.Iusb.Cdrom
import Asmb8Ikvm.Iusb.Session

/-!
# The serve loop and the pure frame function

`process_frame` answers one raw frame without a transport. This file folds it
over a sequence of frames and shows that `serve_forever` with a `CDROMDevice`
computes that fold: it sends the answers of the fold, in order, and leaves the
device in the state the fold leaves it in.

The stream delivers the frames whole, with idle polls between them. The loop
ends at the first kill packet or at the end of the stream.
-/

namespace Asmb8Ikvm.Iusb

open Bytes ByteStream

universe u v

def processFrame {σ : Type u} (handle : Packet → σ → Except Exn (Option Bytes) × σ)
    (deviceType : ℤ) (frame : Bytes) (heap : σ) : Except Exn (Option Bytes) × σ :=
  match parseRequestFrame frame with
  | .error exn => (.error exn, heap)
  | .ok req =>
      if req.isKill then (.ok none, heap)
      else
        match handle req heap with
        | (.error exn, heap) => (.error exn, heap)
        | (.ok none, heap) => (.ok none, heap)
        | (.ok (some payload), heap) =>
            (.ok (some (buildResponseFrame req.header payload deviceType)), heap)

/-- `process_frame` applied to a sequence of frames, one after the other. -/
def processFrames {σ : Type u} (handle : Packet → σ → Except Exn (Option Bytes) × σ)
    (deviceType : ℤ) : List Bytes → σ → Except Exn (List (Option Bytes)) × σ
  | [], heap => (.ok [], heap)
  | frame :: frames, heap =>
      match processFrame handle deviceType frame heap with
      | (.error exn, heap) => (.error exn, heap)
      | (.ok answer, heap) =>
          match processFrames handle deviceType frames heap with
          | (.error exn, heap) => (.error exn, heap)
          | (.ok answers, heap) => (.ok (answer :: answers), heap)

/-- A stream that delivers the frames whole, with idle polls between them, and ends. -/
inductive Delivered : List WireFrame → List Item → Prop where
  | closed : Delivered [] []
  | idle {frames : List WireFrame} {rest : List Item} (later : Delivered frames rest) :
      Delivered frames (.timeout :: rest)
  | frame {frame : WireFrame} {frames : List WireFrame} {rest : List Item}
      (later : Delivered frames rest) :
      Delivered (frame :: frames) (bytesItems frame.bytes ++ rest)

/-- The frames before the first kill packet. -/
def beforeKill (frames : List WireFrame) : List WireFrame :=
  frames.takeWhile fun frame => !frame.packet.isKill

/-- The way the loop ends on these frames. -/
def ending (frames : List WireFrame) : ServeResult :=
  if frames.any fun frame => frame.packet.isKill then .killed else .peerClosed

/-- A request is answered exactly when its payload has an opcode, and the answer has its
instance and its sequence number. -/
structure Answers (request : WireFrame) (answer : Option Bytes) : Prop where
  answered : answer.isSome ↔ 10 ≤ request.payload.length
  echoes {resp : Bytes} : answer = some resp →
    ∃ header, Header.parse (resp.take headerLen) = .ok header ∧
      header.instanceNumber = request.packet.header.instanceNumber ∧
      header.sequenceNumber = request.packet.header.sequenceNumber

/-- The callbacks of a session over a CD-ROM device, with hooks that keep a state of
their own and look at the device. -/
def cdromCallbacks {ρ : Type u} [Reader ρ] {τ : Type v} (onIdle : CDROMDevice ρ → τ → τ)
    (onRequest : Packet → CDROMDevice ρ → τ → τ) : Callbacks (CDROMDevice ρ × τ) where
  handle req heap :=
    let (result, device) := heap.1.handle req
    (result, (device, heap.2))
  onIdle heap := (.ok (), (heap.1, onIdle heap.1 heap.2))
  onRequest req heap := (.ok (), (heap.1, onRequest req heap.1 heap.2))

section Echo

theorem field_emod (b : Bytes) (index : ℕ) :
    Header.field b index % 2 ^ 8 = Header.field b index := by
  have below := (b.getD index 0).toNat_lt
  rw [Header.field]
  omega

theorem field32_emod (b : Bytes) (offset : ℕ) :
    Header.field32 b offset % 2 ^ 32 = Header.field32 b offset := by
  have below := ofLE_lt (slice b offset 4)
  have width : (slice b offset 4).length ≤ 4 := by
    rw [length_slice]
    exact min_le_left _ _
  have bound : 256 ^ (slice b offset 4).length ≤ 256 ^ 4 :=
    Nat.pow_le_pow_right (by decide) width
  rw [Header.field32]
  omega

/-- A response frame has the instance and the sequence number of its request. -/
theorem buildResponseFrame_echoes (frame : WireFrame) (payload : Bytes) (deviceType : ℤ) :
    ∃ header, Header.parse ((buildResponseFrame frame.packet.header payload deviceType).take
        headerLen) = .ok header ∧
      header.instanceNumber = frame.packet.header.instanceNumber ∧
      header.sequenceNumber = frame.packet.header.sequenceNumber := by
  rw [buildResponseFrame, List.take_left' (Header.length_marshal _), Header.parse_marshal]
  exact ⟨_, rfl, field_emod frame.header 23, field32_emod frame.header 24⟩

end Echo

theorem processFrame_bytes {σ : Type u} {handle : Packet → σ → Except Exn (Option Bytes) × σ}
    (deviceType : ℤ) {frame : WireFrame} {heap later : σ} {answer : Option Bytes}
    (alive : frame.packet.isKill = false)
    (handles : handle frame.packet heap = (.ok answer, later)) :
    processFrame handle deviceType frame.bytes heap =
      (.ok (answer.map (buildResponseFrame frame.packet.header · deviceType)), later) := by
  rw [processFrame, frame.parseRequestFrame_bytes]
  simp only [alive, handles]
  cases answer <;> rfl

section Rounds

variable {ρ : Type u} [Reader ρ] {τ : Type v} {onIdle : CDROMDevice ρ → τ → τ}
  {onRequest : Packet → CDROMDevice ρ → τ → τ} {deviceType : ℤ}
  {s : Serving (CDROMDevice ρ × τ)} {frame : WireFrame} {frames : List WireFrame}
  {items rest : List Item}

/-- All sends to come succeed. -/
def SendsSucceed (s : Serving (CDROMDevice ρ × τ)) : Prop :=
  ∀ fault ∈ s.transport.sock.sendFaults, fault = none

theorem serveRound_closed (front : s.transport.sock.items = []) :
    ∃ final, s.serveRound (cdromCallbacks onIdle onRequest) deviceType =
        .done (.ok .peerClosed) final ∧
      final.heap.1 = s.heap.1 ∧ final.transport.sock.sent = s.transport.sock.sent := by
  rcases SocketTransport.readPacket_closed front with ⟨message, reading⟩
  have outcome : s.transport.readPacket =
      (.error (.eofError message), s.transport.readPacket.2) := Prod.ext reading rfl
  have advances := s.transport.readPacket_advances
  simp only [Serving.serveRound, cdromCallbacks, Serving.log]
  rw [outcome]
  exact ⟨_, rfl, rfl, advances.sent⟩

theorem serveRound_idle (front : s.transport.sock.items = .timeout :: rest) :
    ∃ next, s.serveRound (cdromCallbacks onIdle onRequest) deviceType = .again next ∧
      next.transport.sock.items = rest ∧ next.heap.1 = s.heap.1 ∧
      next.transport.sock.sent = s.transport.sock.sent ∧
      next.transport.sock.sendFaults = s.transport.sock.sendFaults := by
  rcases SocketTransport.readPacket_idle front with ⟨reading, left⟩
  have outcome : s.transport.readPacket = (.error .idleTimeout, s.transport.readPacket.2) :=
    Prod.ext reading rfl
  have advances := s.transport.readPacket_advances
  simp only [Serving.serveRound, cdromCallbacks, Serving.log]
  rw [outcome]
  exact ⟨_, rfl, left, rfl, advances.sent, advances.sendFaults⟩

theorem serveRound_kill (front : s.transport.sock.items = bytesItems frame.bytes ++ rest)
    (kill : frame.packet.isKill = true) :
    ∃ final, s.serveRound (cdromCallbacks onIdle onRequest) deviceType =
        .done (.ok .killed) final ∧
      final.heap.1 = s.heap.1 ∧ final.transport.sock.sent = s.transport.sock.sent := by
  rcases SocketTransport.readPacket_frame front with ⟨reading, -⟩
  have outcome : s.transport.readPacket = (.ok frame.packet, s.transport.readPacket.2) :=
    Prod.ext reading rfl
  have advances := s.transport.readPacket_advances
  simp only [Serving.serveRound, cdromCallbacks, Serving.log]
  rw [outcome]
  simp only [kill, if_true]
  exact ⟨_, rfl, rfl, advances.sent⟩

theorem serveRound_request (front : s.transport.sock.items = bytesItems frame.bytes ++ rest)
    (alive : frame.packet.isKill = false) {answer : Option Bytes} {device : CDROMDevice ρ}
    (handles : s.heap.1.handle frame.packet = (.ok answer, device)) (sends : SendsSucceed s) :
    ∃ next, s.serveRound (cdromCallbacks onIdle onRequest) deviceType = .again next ∧
      next.transport.sock.items = rest ∧ next.heap.1 = device ∧
      next.transport.sock.sent = s.transport.sock.sent ++
        (answer.map (buildResponseFrame frame.packet.header · deviceType)).toList ∧
      SendsSucceed next := by
  rcases SocketTransport.readPacket_frame front with ⟨reading, left⟩
  have outcome : s.transport.readPacket = (.ok frame.packet, s.transport.readPacket.2) :=
    Prod.ext reading rfl
  have advances := s.transport.readPacket_advances
  have sends' : ∀ fault ∈ s.transport.readPacket.2.sock.sendFaults, fault = none := by
    rw [advances.sendFaults]
    exact sends
  simp only [Serving.serveRound, cdromCallbacks, Serving.log]
  rw [outcome]
  simp only [alive, Serving.serveRequest, Serving.log, handles]
  generalize s.transport.readPacket.2 = t at left advances sends'
  cases answer with
  | none =>
      refine ⟨_, rfl, left, rfl, ?_, sends'⟩
      simpa using advances.sent
  | some payload =>
      rcases t.writeFrame_cases (buildResponseFrame frame.packet.header payload deviceType) with
        ⟨-, text, faults, error, failing, -, -⟩ | ⟨-, written⟩
      · have impossible := sends' (some text) (by simp [failing])
        cases impossible
      · simp only [written]
        refine ⟨_, rfl, left, rfl, ?_, ?_⟩
        · rw [advances.sent]
          rfl
        · intro fault faultMem
          exact sends' fault (List.mem_of_mem_tail faultMem)

variable [LawfulReader ρ]

/-- What the loop leaves behind is what the fold of `process_frame` computes. -/
structure Computes (deviceType : ℤ) (frames : List WireFrame) (device : CDROMDevice ρ)
    (sent : List Bytes) (run : Except Exn ServeResult × Serving (CDROMDevice ρ × τ)) : Prop where
  outcome : run.1 = .ok (ending frames)
  fold : ∃ answers, processFrames CDROMDevice.handle deviceType
      ((beforeKill frames).map WireFrame.bytes) device = (.ok answers, run.2.heap.1) ∧
    run.2.transport.sock.sent = sent ++ answers.reduceOption ∧
    List.Forall₂ Answers (beforeKill frames) answers

theorem run_computes (delivered : Delivered frames items)
    (front : s.transport.sock.items = items) (sends : SendsSucceed s)
    (valid : LawfulReader.Valid s.heap.1.r)
    (representable : ∀ frame ∈ frames,
      CDROMDevice.Representable s.heap.1.lastLba frame.packet) :
    Computes deviceType frames s.heap.1 s.transport.sock.sent
      (Loop.run Serving.remaining
        (Serving.serveRound (cdromCallbacks onIdle onRequest) deviceType)
        (Serving.serveRound_decreases _ deviceType) s) := by
  induction delivered generalizing s with
  | closed =>
      rcases serveRound_closed front with ⟨final, round, device, sent⟩
      rw [Loop.run_done round]
      refine ⟨rfl, [], ?_, ?_, .nil⟩
      · rw [device]
        rfl
      · simpa using sent
  | idle later ih =>
      rcases serveRound_idle front with ⟨next, round, left, device, sent, sendFaults⟩
      rw [Loop.run_again round, ← device, ← sent]
      refine ih left ?_ ?_ ?_
      · rw [SendsSucceed, sendFaults]
        exact sends
      · rw [device]
        exact valid
      · rw [device]
        exact representable
  | @frame frame frames rest later ih =>
      cases kill : frame.packet.isKill with
      | true =>
          rcases serveRound_kill front kill with ⟨final, round, device, sent⟩
          rw [Loop.run_done round]
          have none : beforeKill (frame :: frames) = [] := by simp [beforeKill, kill]
          refine ⟨by simp [ending, kill], [], ?_, ?_, ?_⟩
          · rw [none, device]
            rfl
          · simpa using sent
          · rw [none]
            exact .nil
      | false =>
          have fits := representable frame List.mem_cons_self
          rcases CDROMDevice.handle_eq valid fits with ⟨answer, answered, isSome⟩
          have same := CDROMDevice.handle_sameImage valid frame.packet
          have handles : s.heap.1.handle frame.packet =
              (.ok answer, (s.heap.1.handle frame.packet).2) := Prod.ext answered rfl
          obtain ⟨next, round, left, device, sent, sends'⟩ :=
            serveRound_request front kill handles sends
          rw [← device] at same handles
          have ⟨outcome, answers, folded, sentRest, echoed⟩ :=
            ih left sends' same.valid (by
              rw [same.lastLba]
              exact fun frame frameMem => representable frame (List.mem_cons_of_mem _ frameMem))
          have first := processFrame_bytes deviceType kill handles
          have cons : beforeKill (frame :: frames) = frame :: beforeKill frames := by
            simp [beforeKill, kill]
          rw [Loop.run_again round]
          refine ⟨?_, answer.map (buildResponseFrame frame.packet.header · deviceType) :: answers,
            ?_, ?_, ?_⟩
          · rw [outcome]
            simp [ending, kill]
          · rw [cons, List.map_cons, processFrames, first]
            simp only [folded]
          · rw [sentRest, sent, List.append_assoc]
            cases answer <;> rfl
          · rw [cons]
            refine .cons ⟨?_, ?_⟩ echoed
            · rw [Option.isSome_map, isSome]
              rfl
            · intro resp built
              rcases Option.map_eq_some_iff.mp built with ⟨payload, -, rfl⟩
              exact buildResponseFrame_echoes frame payload deviceType

end Rounds

/-- On whole frames with idle polls between them, `serve_forever` over a CD-ROM device
computes the fold of `process_frame` over the frames before the first kill packet. -/
theorem serveForever_refines_processFrame {ρ : Type u} [Reader ρ] [LawfulReader ρ] {τ : Type v}
    (onIdle : CDROMDevice ρ → τ → τ) (onRequest : Packet → CDROMDevice ρ → τ → τ)
    {frames : List WireFrame} (session : Session) (device : CDROMDevice ρ) (state : τ)
    (delivered : Delivered frames session.transport.sock.items)
    (sends : ∀ fault ∈ session.transport.sock.sendFaults, fault = none)
    (valid : LawfulReader.Valid device.r)
    (representable : ∀ frame ∈ frames, CDROMDevice.Representable device.lastLba frame.packet) :
    Computes session.deviceType frames device session.transport.sock.sent
      (session.serveForever (cdromCallbacks onIdle onRequest) (device, state)) :=
  run_computes (s := { transport := session.transport, heap := (device, state) }) delivered rfl
    sends valid representable

/-- TEST UNIT READY of instance 3 with sequence number 7. -/
def testUnitReady : WireFrame where
  header := ({ dataPacketLen := 10, instanceNumber := 3, sequenceNumber := 7 } : Header).marshal
  payload := List.replicate 10 0
  length := by decide
  signed := by decide
  announced := by decide
  bounded := by decide

/-- READ(10) of the second block, with sequence number 8. -/
def readSecondBlock : WireFrame where
  header := ({ dataPacketLen := 29, instanceNumber := 3, sequenceNumber := 8 } : Header).marshal
  payload := List.replicate 9 0 ++ [0x28, 0, 0, 0, 0, 1, 0, 0, 1] ++ List.replicate 11 0
  length := by decide
  signed := by decide
  announced := by decide
  bounded := by decide

def killRedirection : WireFrame where
  header := ({ dataPacketLen := 10, instanceNumber := 3, sequenceNumber := 9 } : Header).marshal
  payload := List.replicate 9 0 ++ [opKillRedir]
  length := by decide
  signed := by decide
  announced := by decide
  bounded := by decide

/-- A session that meets two requests with idle polls before and between them, the end of the
redirection and a request behind it. -/
def killedSession : Session where
  transport.sock.inbound :=
    .timeout :: leftover testUnitReady.bytes (.timeout :: .timeout ::
      leftover readSecondBlock.bytes (leftover killRedirection.bytes
        (leftover testUnitReady.bytes [])))

/-- An image of two blocks. -/
def twoBlocks : FileReader :=
  ⟨List.replicate 2048 7 ++ List.replicate 2048 8⟩

/-- A poll of the drive and a read from the image, with idle polls, up to the kill packet. -/
theorem serveForever_refines_testUnitReady :
    Computes deviceCdrom [testUnitReady, readSecondBlock, killRedirection, testUnitReady]
      (CDROMDevice.new twoBlocks) []
      (killedSession.serveForever (cdromCallbacks (fun _ => id) fun _ _ => id)
        (CDROMDevice.new twoBlocks, ())) := by
  have items : killedSession.transport.sock.items =
      .timeout :: (bytesItems testUnitReady.bytes ++ (.timeout :: .timeout ::
        (bytesItems readSecondBlock.bytes ++ (bytesItems killRedirection.bytes ++
          (bytesItems testUnitReady.bytes ++ []))))) := by
    decide +kernel
  refine serveForever_refines_processFrame (fun _ => id) (fun _ _ => id) killedSession
    (CDROMDevice.new twoBlocks) () ?_ ?_ trivial ?_
  · rw [items]
    exact .idle (.frame (.idle (.idle (.frame (.frame (.frame .closed))))))
  · intro fault faultMem
    cases faultMem
  · simp only [List.forall_mem_cons, List.not_mem_nil, false_imp_iff, implies_true, and_true]
    exact ⟨⟨by decide, by decide, by decide⟩, ⟨by decide, by decide, by decide⟩,
      ⟨by decide, by decide, by decide⟩, by decide, by decide, by decide⟩

end Asmb8Ikvm.Iusb

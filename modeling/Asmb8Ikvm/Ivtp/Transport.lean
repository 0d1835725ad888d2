import Asmb8Ikvm.Lib.Loop
import Asmb8Ikvm.Lib.Packets
import Asmb8Ikvm.Ivtp.Packet

/-!
# Packets over a socket

`SocketTransport` of `ivtp.py` with `read_packet` and `write_packet`, and the
loop both `open_channel` and `capture_one_frame` are built around: read packets
until one of them ends the wait.

Every fault of a read is classified except the end of the stream, which leaves
`recv_exact` as `EOFError`. So a wait is classified exactly when the stream does
not end in it.
-/

namespace Asmb8Ikvm.Ivtp

open Bytes ByteStream

structure SocketTransport where
  sock : Sock
deriving DecidableEq, Repr

/-- The exceptions of `recv_exact(n)`. -/
def recvFault (n : ℕ) : ReadFault → Exn
  | .timeout got =>
      .ikvm {
        errorClass := .timeout
        message := "ivtp: timed out waiting for " ++ toString (n - got) ++
          " more byte(s) (got " ++ toString got ++ " of " ++ toString n ++ ")"
        operation := some "ivtp.read_packet"
        indeterminate := got != 0 }
  | .oserror _ text =>
      connectionError ("ivtp: socket error while reading: " ++ text) "ivtp.read_packet"
  | .closed _ => .eofError "ivtp: connection closed while reading"

namespace SocketTransport

def recvExact (n : ℕ) (t : SocketTransport) : Except Exn Bytes × SocketTransport :=
  if n = 0 then (.ok [], t)
  else
    match t.sock.readExact n with
    | (.ok chunks, sock) => (.ok chunks, { sock })
    | (.error fault, sock) => (.error (recvFault n fault), { sock })

def sendAll (data : Bytes) (t : SocketTransport) : Except Exn Unit × SocketTransport :=
  match t.sock.sendAll data with
  | (.ok (), sock) => (.ok (), { sock })
  | (.error text, sock) =>
      (.error (connectionError ("ivtp: socket error while writing: " ++ text)
        "ivtp.write_packet"), { sock })

def readPacket (t : SocketTransport) : Except Exn (Header × Bytes) × SocketTransport :=
  match t.recvExact headerLen with
  | (.error exn, t) => (.error exn, t)
  | (.ok data, t) =>
      match Header.parse data with
      | .error exn => (.error exn, t)
      | .ok header =>
          if maxFrameBytes < header.pktSize then
            (.error (protocolError
              ("ivtp: implausible pkt_size " ++ toString header.pktSize ++
                " in a received header (type=" ++ toString header.type ++ ")")
              "ivtp.read_packet"), t)
          else if header.pktSize ≠ 0 then
            match t.recvExact header.pktSize.toNat with
            | (.error exn, t) => (.error exn, t)
            | (.ok body, t) => (.ok (header, body), t)
          else (.ok (header, []), t)

def writePacket (data : Bytes) (t : SocketTransport) : Except Exn Unit × SocketTransport :=
  t.sendAll data

end SocketTransport

/-- The format of packets: what `read_packet` makes of a header. -/
def packetFormat : PacketFormat Exn where
  headerLen := headerLen
  bodyLen data :=
    match Header.parse data with
    | .error exn => .error exn
    | .ok header =>
        if maxFrameBytes < header.pktSize then
          .error (protocolError
            ("ivtp: implausible pkt_size " ++ toString header.pktSize ++
              " in a received header (type=" ++ toString header.type ++ ")")
            "ivtp.read_packet")
        else .ok header.pktSize.toNat

/-- The exceptions of `read_packet`. -/
def packetExn : PacketFault Exn → Exn
  | .header fault => recvFault headerLen fault
  | .refused exn => exn
  | .body n fault => recvFault n fault

theorem bodyLen_error {data : Bytes} {exn : Exn}
    (refuses : packetFormat.bodyLen data = .error exn) : ∃ error, exn = .ikvm error := by
  simp only [packetFormat, Header.parse] at refuses
  by_cases short : data.length < headerLen
  · rw [if_pos short] at refuses
    cases refuses
    exact ⟨_, rfl⟩
  · rw [if_neg short] at refuses
    dsimp only at refuses
    split_ifs at refuses
    cases refuses
    exact ⟨_, rfl⟩

theorem recvFault_isIkvm_iff (n : ℕ) (fault : ReadFault) :
    (∃ error, recvFault n fault = .ikvm error) ↔ ∀ got, fault ≠ .closed got := by
  cases fault <;> simp [recvFault, connectionError]

/-- The only fault of a packet that is not classified is the end of the stream. -/
theorem packetExn_isIkvm_iff {items rest : List Item} {fault : PacketFault Exn}
    (reads : ReadsPacket packetFormat items (.error fault) rest) :
    (∃ error, packetExn fault = .ikvm error) ↔ ¬ fault.IsClosed := by
  cases reads with
  | refused length refuses =>
      rcases bodyLen_error refuses with ⟨error, rfl⟩
      simp [packetExn, PacketFault.IsClosed]
  | @headerFault _ _ fault reads =>
      simp only [packetExn, recvFault_isIkvm_iff]
      cases fault <;> simp [PacketFault.IsClosed]
  | @bodyFault _ _ _ _ fault length announced reads =>
      simp only [packetExn, recvFault_isIkvm_iff]
      cases fault <;> simp [PacketFault.IsClosed]

namespace SocketTransport

theorem recvExact_eq (n : ℕ) (t : SocketTransport) :
    t.recvExact n = ((t.sock.readExact n).1.mapError (recvFault n),
      { sock := (t.sock.readExact n).2 }) := by
  unfold recvExact
  by_cases zero : n = 0
  · subst zero
    rw [if_pos rfl, Sock.readExact_zero]
    rfl
  · rw [if_neg zero]
    rcases t.sock.readExact n with ⟨fault | chunks, sock⟩ <;> rfl

theorem readPacket_eq (t : SocketTransport) :
    t.readPacket =
      (((t.sock.readPacket packetFormat).1.mapError packetExn).map fun packet =>
          (Header.ofBytes packet.1, packet.2),
        { sock := (t.sock.readPacket packetFormat).2 }) := by
  unfold readPacket Sock.readPacket
  simp only [recvExact_eq, packetFormat]
  rcases t.sock.readExact headerLen with ⟨fault | data, afterHeader⟩
  · rfl
  · by_cases short : data.length < headerLen
    · simp [Except.mapError, Header.parse, short, packetExn, Except.map]
    · simp only [Except.mapError, Header.parse, if_neg short]
      split_ifs with implausible nonempty
      · rfl
      · dsimp only
        rcases afterHeader.readExact (Header.ofBytes data).pktSize.toNat with
          ⟨fault | body, afterBody⟩ <;> rfl
      · rw [not_not] at nonempty
        simp only [nonempty, Int.toNat_zero, Sock.readExact_zero]
        rfl

theorem readPacket_of_reads {t : SocketTransport} {rest : List Item}
    {result : Except (PacketFault Exn) (Bytes × Bytes)}
    (reads : ReadsPacket packetFormat t.sock.items result rest) :
    t.readPacket.1 = (result.mapError packetExn).map (fun packet =>
        (Header.ofBytes packet.1, packet.2)) ∧
      t.readPacket.2.sock.items = rest := by
  rcases Sock.readPacket_eq reads with ⟨value, left⟩
  rw [readPacket_eq, value]
  exact ⟨rfl, left⟩

theorem length_readPacket_lt {t later : SocketTransport} {packet : Header × Bytes}
    (outcome : t.readPacket = (.ok packet, later)) :
    later.sock.items.length < t.sock.items.length := by
  have reads := (t.sock.readPacket_spec packetFormat).1
  rw [readPacket_eq, Prod.mk.injEq] at outcome
  rcases outcome with ⟨value, rfl⟩
  rcases reads.length_lt (by decide) with shorter | ⟨got, closed⟩
  · exact shorter
  · rw [closed] at value
    cases value

/-- `write_packet` sends the data, or fails with a connection error as the socket says. -/
theorem writePacket_cases (data : Bytes) (t : SocketTransport) :
    (¬ t.sock.CanSend ∧ ∃ error later, t.writePacket data = (.error (.ikvm error), later)) ∨
    (t.sock.CanSend ∧ t.writePacket data =
      (.ok (),
        { sock := { t.sock with
            sendFaults := t.sock.sendFaults.tail
            sent := t.sock.sent ++ [data] } })) := by
  rcases t with ⟨⟨inbound, sendFaults, received, sent⟩⟩
  rcases sendFaults with _ | ⟨_ | text, faults⟩
  · exact .inr ⟨rfl, rfl⟩
  · exact .inr ⟨rfl, rfl⟩
  · refine .inl ⟨?_, _, _, rfl⟩
    intro canSend
    cases canSend

end SocketTransport

section Waiting

universe u v

variable {σ : Type u} {α : Type v}

/-- One round of a loop that waits for a packet. -/
def waitRound (react : σ → Header → Bytes → Reaction σ (Except Exn α))
    (s : SocketTransport × σ) : Loop.Step (SocketTransport × σ) (Except Exn α) :=
  match s.1.readPacket with
  | (.error exn, transport) => .done (.error exn) (transport, s.2)
  | (.ok (header, body), transport) =>
      match react s.2 header body with
      | .finish result => .done result (transport, s.2)
      | .wait state => .again (transport, state)

/-- The amount of input left. -/
def remaining (s : SocketTransport × σ) : ℕ :=
  s.1.sock.items.length

theorem waitRound_decreases (react : σ → Header → Bytes → Reaction σ (Except Exn α)) :
    Loop.Decreases remaining (waitRound react) := by
  intro s next round
  unfold waitRound at round
  split at round
  case h_1 => cases round
  case h_2 header body transport outcome =>
    split at round
    case h_1 => cases round
    case h_2 =>
      cases round
      exact SocketTransport.length_readPacket_lt outcome

/-- Read packets until one ends the wait. -/
def waitFor (react : σ → Header → Bytes → Reaction σ (Except Exn α)) (state : σ)
    (transport : SocketTransport) : Except Exn α × SocketTransport :=
  let (result, transport, _) :=
    Loop.run remaining (waitRound react) (waitRound_decreases react) (transport, state)
  (result, transport)

variable {react : σ → Header → Bytes → Reaction σ (Except Exn α)} {state next : σ}
  {transport : SocketTransport}

theorem waitFor_error {items rest : List Item} {fault : PacketFault Exn}
    (front : transport.sock.items = items)
    (reads : ReadsPacket packetFormat items (.error fault) rest) :
    (waitFor react state transport).1 = .error (packetExn fault) := by
  subst front
  have round : waitRound react (transport, state) =
      .done (.error (packetExn fault)) (transport.readPacket.2, state) := by
    have outcome : transport.readPacket =
        (.error (packetExn fault), transport.readPacket.2) :=
      Prod.ext (SocketTransport.readPacket_of_reads reads).1 rfl
    rw [waitRound, outcome]
  rw [waitFor, Loop.run_done round]

theorem waitFor_finish {header body : Bytes} {rest : List Item} {result : Except Exn α}
    (reads : ReadsPacket packetFormat transport.sock.items (.ok (header, body)) rest)
    (finishes : react state (Header.ofBytes header) body = .finish result) :
    (waitFor react state transport).1 = result := by
  have round : waitRound react (transport, state) =
      .done result (transport.readPacket.2, state) := by
    have outcome : transport.readPacket =
        (.ok (Header.ofBytes header, body), transport.readPacket.2) :=
      Prod.ext (SocketTransport.readPacket_of_reads reads).1 rfl
    rw [waitRound, outcome]
    dsimp only
    rw [finishes]
  rw [waitFor, Loop.run_done round]

theorem waitFor_wait {header body : Bytes} {rest : List Item}
    (reads : ReadsPacket packetFormat transport.sock.items (.ok (header, body)) rest)
    (waits : react state (Header.ofBytes header) body = .wait next) :
    ∃ later : SocketTransport, later.sock.items = rest ∧
      waitFor react state transport = waitFor react next later := by
  rcases SocketTransport.readPacket_of_reads reads with ⟨value, left⟩
  refine ⟨transport.readPacket.2, left, ?_⟩
  have round : waitRound react (transport, state) = .again (transport.readPacket.2, next) := by
    have outcome : transport.readPacket =
        (.ok (Header.ofBytes header, body), transport.readPacket.2) :=
      Prod.ext value rfl
    rw [waitRound, outcome]
    dsimp only
    rw [waits]
  rw [waitFor, waitFor, Loop.run_again round]

/-- A wait whose own results are classified is classified exactly when the stream does
not end in it. -/
theorem waitFor_classified_iff
    (finishes : ∀ state header body result,
      react state header body = .finish result → Classified result) :
    Classified (waitFor react state transport).1 ↔
      ¬ HangsUp (fun state header => react state (Header.ofBytes header)) packetFormat state
        transport.sock.items := by
  induction size : transport.sock.items.length using Nat.strong_induction_on
    generalizing transport state with
  | _ size' ih =>
      rcases transport.sock.readPacket_spec packetFormat with ⟨reads, -⟩
      generalize (transport.sock.readPacket packetFormat).1 = result at reads
      generalize (transport.sock.readPacket packetFormat).2.items = rest at reads
      rw [reads.hangsUp_iff]
      rcases result with fault | ⟨header, body⟩
      · rw [waitFor_error rfl reads, classified_error, packetExn_isIkvm_iff reads]
      · dsimp only
        cases reaction : react state (Header.ofBytes header) body with
        | finish result =>
            rw [waitFor_finish reads reaction]
            simpa using finishes _ _ _ _ reaction
        | wait next =>
            rcases waitFor_wait reads reaction with ⟨later, left, same⟩
            have shorter : later.sock.items.length < size' := by
              rw [left, ← size]
              rcases reads.length_lt (by decide) with shorter | ⟨got, closed⟩
              · exact shorter
              · cases closed
            rw [same, ih _ shorter rfl, left]
            simp

end Waiting

end Asmb8Ikvm.Ivtp

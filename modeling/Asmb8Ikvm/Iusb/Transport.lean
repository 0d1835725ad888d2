import Asmb8Ikvm.Lib.Packets
import Asmb8Ikvm.Iusb.Frame

/-!
# Frames over a socket

`SocketTransport` of `iusb.py` with `read_packet` and `write_frame`. A read
timeout that elapses before the first byte of a read is `IdleTimeout`; later
in the same read it is a stalled connection.

`read_packet` makes two such reads, one for the header and one for the payload.
`ReadsFrame` says what it does on a stream of well-formed frames: next to a
whole frame, an idle poll and a fault there is a fifth case, a timeout between
the header of a frame and its payload.
-/

namespace Asmb8Ikvm.Iusb

open Bytes ByteStream

/-- `FrameEvent`: one call of the frame hook. -/
inductive FrameEvent where
  | tx (frame : Bytes)
  | rx (frame : Bytes)
deriving DecidableEq, Repr

/-- `SocketTransport` together with the frames its user's hook has been given. -/
structure SocketTransport where
  sock : Sock
  hook : List FrameEvent := []
deriving DecidableEq, Repr

/-- The exceptions of `recv_exact(n)`. -/
def recvFault (n : ℕ) : ReadFault → Exn
  | .timeout 0 => .idleTimeout
  | .timeout (got + 1) =>
      connectionError ("iusb: connection stalled mid-frame after " ++ toString (got + 1) ++
        " of " ++ toString n ++ " bytes") "iusb.read_packet"
  | .oserror _ text =>
      connectionError ("iusb: socket error while reading: " ++ text) "iusb.read_packet"
  | .closed _ => .eofError "iusb: connection closed while reading"

namespace SocketTransport

def recvExact (n : ℕ) (t : SocketTransport) : Except Exn Bytes × SocketTransport :=
  if n = 0 then (.ok [], t)
  else
    match t.sock.readExact n with
    | (.ok chunks, sock) => (.ok chunks, { t with sock })
    | (.error fault, sock) => (.error (recvFault n fault), { t with sock })

def sendAll (data : Bytes) (t : SocketTransport) : Except Exn Unit × SocketTransport :=
  match t.sock.sendAll data with
  | (.ok (), sock) => (.ok (), { t with sock })
  | (.error text, sock) =>
      (.error (connectionError ("iusb: socket error while writing: " ++ text)
        "iusb.write_frame"), { t with sock })

def readPacket (t : SocketTransport) : Except Exn Packet × SocketTransport :=
  match t.recvExact headerLen with
  | (.error exn, t) => (.error exn, t)
  | (.ok hdrBytes, t) =>
      match Header.parse hdrBytes with
      | .error exn => (.error exn, t)
      | .ok header =>
          if maxPacketPayload < header.dataPacketLen then
            (.error (protocolError
              ("iusb: implausible payload length " ++ toString header.dataPacketLen)
              "iusb.read_packet"), t)
          else
            match t.recvExact header.dataPacketLen.toNat with
            | (.error exn, t) => (.error exn, t)
            | (.ok payload, t) =>
                (.ok { header, payload },
                  { t with hook := t.hook ++ [.rx (hdrBytes ++ payload)] })

def writeFrame (frame : Bytes) (t : SocketTransport) : Except Exn Unit × SocketTransport :=
  match t.sendAll frame with
  | (.error exn, t) => (.error exn, t)
  | (.ok (), t) => (.ok (), { t with hook := t.hook ++ [.tx frame] })

end SocketTransport

/-- A well-formed frame on the wire: the header has the signature and announces the
number of payload bytes that follow, which is within the accepted bound. -/
structure WireFrame where
  header : Bytes
  payload : Bytes
  length : header.length = headerLen
  signed : header.take 8 = signature
  announced : (Header.ofBytes header).dataPacketLen = payload.length
  bounded : payload.length ≤ maxPacketPayload

namespace WireFrame

/-- The bytes of the frame. -/
def bytes (frame : WireFrame) : Bytes :=
  frame.header ++ frame.payload

/-- The packet the frame stands for. -/
def packet (frame : WireFrame) : Packet where
  header := Header.ofBytes frame.header
  payload := frame.payload

theorem parse_header (frame : WireFrame) :
    Header.parse frame.header = .ok (Header.ofBytes frame.header) := by
  rw [Header.parse, if_neg (by simp [frame.length]), if_neg (by simp [frame.signed])]

theorem parseRequestFrame_bytes (frame : WireFrame) :
    parseRequestFrame frame.bytes = .ok frame.packet := by
  have front : frame.bytes.take headerLen = frame.header := by
    rw [bytes, ← frame.length, List.take_left]
  have back : frame.bytes.drop headerLen = frame.payload := by
    rw [bytes, ← frame.length, List.drop_left]
  have long : ¬ frame.bytes.length < headerLen := by
    rw [bytes, List.length_append, frame.length]
    omega
  rw [parseRequestFrame, if_neg long, front, back, frame.parse_header]
  simp only [frame.announced, ne_eq, not_true, if_false]
  rfl

end WireFrame

/-- The bytes of a sequence of frames. -/
def wireBytes (frames : List WireFrame) : Bytes :=
  frames.flatMap WireFrame.bytes

@[simp]
theorem wireBytes_nil : wireBytes [] = [] := rfl

theorem wireBytes_cons (frame : WireFrame) (frames : List WireFrame) :
    wireBytes (frame :: frames) = frame.header ++ (frame.payload ++ wireBytes frames) := by
  rw [wireBytes, List.flatMap_cons, WireFrame.bytes, List.append_assoc]
  rfl

@[simp]
theorem wireBytes_append (left right : List WireFrame) :
    wireBytes (left ++ right) = wireBytes left ++ wireBytes right := by
  rw [wireBytes, List.flatMap_append]
  rfl

/-- A stream that starts with fewer than 32 bytes and then ends has no frame in it. -/
theorem eq_nil_of_wireBytes_short {frames : List WireFrame}
    (short : (wireBytes frames).length < headerLen) : frames = [] := by
  cases frames with
  | nil => rfl
  | cons frame frames =>
      rw [wireBytes_cons, List.length_append, frame.length] at short
      omega

/-- A stream of frames with at least 32 bytes starts with the header of its first frame. -/
theorem exists_cons_of_wireBytes {frames : List WireFrame} {header rest : Bytes}
    (length : header.length = headerLen) (streamed : header ++ rest = wireBytes frames) :
    ∃ frame tail, frames = frame :: tail ∧ header = frame.header ∧
      rest = frame.payload ++ wireBytes tail := by
  cases frames with
  | nil =>
      have total := congrArg List.length streamed
      rw [List.length_append, length] at total
      cases Nat.eq_zero_of_add_eq_zero_right total
  | cons frame tail =>
      rw [wireBytes_cons] at streamed
      rcases List.append_inj streamed (length.trans frame.length.symm) with ⟨same, after⟩
      exact ⟨frame, tail, rfl, same, after⟩

/-- The format of packets: what `read_packet` makes of a header. -/
def packetFormat : PacketFormat Exn where
  headerLen := headerLen
  bodyLen hdrBytes :=
    match Header.parse hdrBytes with
    | .error exn => .error exn
    | .ok header =>
        if maxPacketPayload < header.dataPacketLen then
          .error (protocolError
            ("iusb: implausible payload length " ++ toString header.dataPacketLen)
            "iusb.read_packet")
        else .ok header.dataPacketLen.toNat

/-- The exceptions of `read_packet`. -/
def packetExn : PacketFault Exn → Exn
  | .header fault => recvFault headerLen fault
  | .refused exn => exn
  | .body n fault => recvFault n fault

theorem WireFrame.bodyLen_header (frame : WireFrame) :
    packetFormat.bodyLen frame.header = .ok frame.payload.length := by
  have accepted : ¬ (maxPacketPayload : ℤ) < (Header.ofBytes frame.header).dataPacketLen := by
    rw [frame.announced]
    exact_mod_cast Nat.not_lt.mpr frame.bounded
  simp only [packetFormat, frame.parse_header, if_neg accepted]
  rw [frame.announced, Int.toNat_natCast]

namespace SocketTransport

theorem recvExact_eq (n : ℕ) (t : SocketTransport) :
    t.recvExact n = ((t.sock.readExact n).1.mapError (recvFault n),
      { t with sock := (t.sock.readExact n).2 }) := by
  unfold recvExact
  by_cases zero : n = 0
  · subst zero
    rw [if_pos rfl, Sock.readExact_zero]
    rfl
  · rw [if_neg zero]
    rcases t.sock.readExact n with ⟨fault | chunks, sock⟩ <;> rfl

theorem readPacket_eq (t : SocketTransport) :
    t.readPacket =
      match t.sock.readPacket packetFormat with
      | (.error fault, sock) => (.error (packetExn fault), { t with sock })
      | (.ok (hdrBytes, payload), sock) =>
          (.ok { header := Header.ofBytes hdrBytes, payload },
            { sock, hook := t.hook ++ [.rx (hdrBytes ++ payload)] }) := by
  unfold readPacket Sock.readPacket
  simp only [recvExact_eq, packetFormat]
  rcases t.sock.readExact headerLen with ⟨fault | hdrBytes, afterHeader⟩
  · rfl
  · cases parsed : Header.parse hdrBytes with
    | error exn => simp [Except.mapError, parsed, packetExn]
    | ok header =>
        rcases Header.eq_ofBytes_of_parse parsed with rfl
        simp only [Except.mapError, parsed]
        split_ifs
        · rfl
        · dsimp only
          rcases afterHeader.readExact (Header.ofBytes hdrBytes).dataPacketLen.toNat with
            ⟨fault | payload, afterPayload⟩ <;> rfl

theorem readPacket_sock (t : SocketTransport) :
    t.readPacket.2.sock = (t.sock.readPacket packetFormat).2 := by
  rw [readPacket_eq]
  rcases t.sock.readPacket packetFormat with ⟨fault | ⟨hdrBytes, payload⟩, sock⟩ <;> rfl

theorem readPacket_fst (t : SocketTransport) :
    t.readPacket.1 = ((t.sock.readPacket packetFormat).1.mapError packetExn).map fun packet =>
      { header := Header.ofBytes packet.1, payload := packet.2 } := by
  rw [readPacket_eq]
  rcases t.sock.readPacket packetFormat with ⟨fault | ⟨hdrBytes, payload⟩, sock⟩ <;> rfl

theorem readPacket_advances (t : SocketTransport) : t.sock.Advances t.readPacket.2.sock := by
  rw [readPacket_sock]
  exact (t.sock.readPacket_spec packetFormat).2

/-- Reading a packet uses up some of the stream, unless the stream has ended. -/
theorem length_readPacket_lt (t : SocketTransport) :
    (∃ message, t.readPacket.1 = .error (.eofError message)) ∨
      t.readPacket.2.sock.items.length < t.sock.items.length := by
  have reads := (t.sock.readPacket_spec packetFormat).1
  rw [readPacket_sock, readPacket_fst]
  rcases reads.length_lt (by decide) with shorter | ⟨got, closed⟩
  · exact .inr shorter
  · rw [closed]
    exact .inl ⟨_, rfl⟩

/-- `write_frame` sends the frame, or fails with a connection error as the socket says. -/
theorem writeFrame_cases (frame : Bytes) (t : SocketTransport) :
    (¬ t.sock.CanSend ∧ ∃ text faults error, t.sock.sendFaults = some text :: faults ∧
      t.writeFrame frame =
        (.error (.ikvm error), { t with sock := { t.sock with sendFaults := faults } }) ∧
      error.errorClass = .connection) ∨
    (t.sock.CanSend ∧ t.writeFrame frame =
      (.ok (),
        { sock := { t.sock with
            sendFaults := t.sock.sendFaults.tail
            sent := t.sock.sent ++ [frame] }
          hook := t.hook ++ [.tx frame] })) := by
  rcases t with ⟨⟨inbound, sendFaults, received, sent⟩, hook⟩
  rcases sendFaults with _ | ⟨_ | text, faults⟩
  · exact .inr ⟨rfl, rfl⟩
  · exact .inr ⟨rfl, rfl⟩
  · refine .inl ⟨?_, text, faults, _, rfl, rfl, rfl⟩
    intro canSend
    cases canSend

@[simp]
theorem writeFrame_inbound (frame : Bytes) (t : SocketTransport) :
    (t.writeFrame frame).2.sock.inbound = t.sock.inbound := by
  rcases t.writeFrame_cases frame with ⟨_, _, _, _, _, written, _⟩ | ⟨_, written⟩ <;> rw [written]

@[simp]
theorem writeFrame_items (frame : Bytes) (t : SocketTransport) :
    (t.writeFrame frame).2.sock.items = t.sock.items := by
  rw [Sock.items, writeFrame_inbound]
  rfl

end SocketTransport

/-- What `read_packet` does on a stream of well-formed frames: its result and the items
it leaves. -/
inductive ReadsFrame : List WireFrame → List Item → Except Exn Packet → List Item → Prop where
  | frame {frame : WireFrame} {frames : List WireFrame} {rest : List Item} :
      ReadsFrame (frame :: frames) (bytesItems frame.bytes ++ rest) (.ok frame.packet) rest
  | idle {frames : List WireFrame} {rest : List Item} :
      ReadsFrame frames (.timeout :: rest) (.error .idleTimeout) rest
  | gap {frame : WireFrame} {frames : List WireFrame} {rest : List Item}
      (nonempty : frame.payload ≠ []) :
      ReadsFrame (frame :: frames) (bytesItems frame.header ++ .timeout :: rest)
        (.error .idleTimeout) rest
  | closed {message : String} : ReadsFrame [] [] (.error (.eofError message)) []
  | fault {frames : List WireFrame} {items rest : List Item} {error : IkvmError}
      (connection : error.errorClass = .connection) :
      ReadsFrame frames items (.error (.ikvm error)) rest

namespace SocketTransport

theorem readPacket_spec {t : SocketTransport} {frames : List WireFrame}
    (streamed : itemsBytes t.sock.items = wireBytes frames) :
    ReadsFrame frames t.sock.items t.readPacket.1 t.readPacket.2.sock.items := by
  have reads := (t.sock.readPacket_spec packetFormat).1
  rw [readPacket_sock, readPacket_fst]
  generalize (t.sock.readPacket packetFormat).1 = result at reads ⊢
  generalize (t.sock.readPacket packetFormat).2.items = rest at reads ⊢
  generalize t.sock.items = items at streamed reads ⊢
  cases reads with
  | @whole header body rest length announced =>
      rw [itemsBytes_append, itemsBytes_bytesItems, List.append_assoc] at streamed
      rcases exists_cons_of_wireBytes length streamed with ⟨frame, tail, rfl, rfl, following⟩
      rw [frame.bodyLen_header] at announced
      rcases List.append_inj following (Except.ok.inj announced).symm with ⟨rfl, -⟩
      exact .frame
  | @refused header rest error length refuses =>
      rw [itemsBytes_append, itemsBytes_bytesItems] at streamed
      rcases exists_cons_of_wireBytes length streamed with ⟨frame, tail, rfl, rfl, -⟩
      rw [frame.bodyLen_header] at refuses
      cases refuses
  | headerFault reads =>
      cases reads with
      | @timeout bytes rest short =>
          cases bytes with
          | nil => exact .idle
          | cons => exact .fault rfl
      | oserror short => exact .fault rfl
      | closed short =>
          rw [itemsBytes_append, itemsBytes_bytesItems, itemsBytes_nil, List.append_nil] at streamed
          rw [streamed] at short
          rcases eq_nil_of_wireBytes_short short with rfl
          subst streamed
          exact .closed
  | @bodyFault header n items rest fault length announced reads =>
      rw [itemsBytes_append, itemsBytes_bytesItems] at streamed
      rcases exists_cons_of_wireBytes length streamed with ⟨frame, tail, rfl, rfl, following⟩
      rw [frame.bodyLen_header] at announced
      rcases Except.ok.inj announced with rfl
      cases reads with
      | @timeout bytes rest short =>
          cases bytes with
          | nil => exact .gap (List.length_pos_iff.mp short)
          | cons => exact .fault rfl
      | oserror short => exact .fault rfl
      | closed short =>
          rw [itemsBytes_append, itemsBytes_bytesItems, itemsBytes_nil, List.append_nil]
            at following
          rw [following, List.length_append] at short
          omega

section Forward

variable {t : SocketTransport} {frame : WireFrame} {rest : List Item}

theorem readPacket_of_reads {result : Except (PacketFault Exn) (Bytes × Bytes)}
    (reads : ReadsPacket packetFormat t.sock.items result rest) :
    t.readPacket.1 = (result.mapError packetExn).map (fun packet =>
        { header := Header.ofBytes packet.1, payload := packet.2 }) ∧
      t.readPacket.2.sock.items = rest := by
  rcases Sock.readPacket_eq reads with ⟨value, left⟩
  rw [readPacket_fst, readPacket_sock, value]
  exact ⟨rfl, left⟩

theorem readPacket_frame (front : t.sock.items = bytesItems frame.bytes ++ rest) :
    t.readPacket.1 = .ok frame.packet ∧ t.readPacket.2.sock.items = rest := by
  have reads : ReadsPacket packetFormat t.sock.items (.ok (frame.header, frame.payload)) rest := by
    rw [front]
    exact .whole frame.length frame.bodyLen_header
  exact readPacket_of_reads reads

/-- A timeout between a header and its payload looks like an idle poll. -/
theorem readPacket_gap (nonempty : frame.payload ≠ [])
    (front : t.sock.items = bytesItems frame.header ++ .timeout :: rest) :
    t.readPacket.1 = .error .idleTimeout ∧ t.readPacket.2.sock.items = rest := by
  have reads : ReadsPacket packetFormat t.sock.items
      (.error (.body frame.payload.length (.timeout 0))) rest := by
    rw [front]
    exact .bodyFault frame.length frame.bodyLen_header
      (@ReadsTo.timeout _ [] rest (List.length_pos_iff.mpr nonempty))
  exact readPacket_of_reads reads

theorem readPacket_idle (front : t.sock.items = .timeout :: rest) :
    t.readPacket.1 = .error .idleTimeout ∧ t.readPacket.2.sock.items = rest := by
  have reads : ReadsPacket packetFormat t.sock.items (.error (.header (.timeout 0))) rest := by
    rw [front]
    exact .headerFault (@ReadsTo.timeout headerLen [] rest (by decide))
  exact readPacket_of_reads reads

theorem readPacket_closed (atEnd : t.sock.items = []) :
    ∃ message, t.readPacket.1 = .error (.eofError message) := by
  have reads : ReadsPacket packetFormat t.sock.items (.error (.header (.closed 0))) [] := by
    rw [atEnd]
    exact .headerFault (@ReadsTo.closed headerLen [] (by decide))
  exact ⟨_, (readPacket_of_reads reads).1⟩

end Forward

theorem bodyLen_error {hdrBytes : Bytes} {exn : Exn}
    (refuses : packetFormat.bodyLen hdrBytes = .error exn) : ∃ error, exn = .ikvm error := by
  simp only [packetFormat] at refuses
  cases parsed : Header.parse hdrBytes with
  | error exn' =>
      rw [parsed] at refuses
      cases refuses
      exact Header.parse_error parsed
  | ok header =>
      rw [parsed] at refuses
      dsimp only at refuses
      split_ifs at refuses
      cases refuses
      exact ⟨_, rfl⟩

theorem recvFault_cases (n : ℕ) (fault : ReadFault) :
    (∃ error, recvFault n fault = .ikvm error) ∨ recvFault n fault = .idleTimeout ∨
      ∃ message got, recvFault n fault = .eofError message ∧ fault = .closed got := by
  rcases fault with (_ | got) | _ | got
  · exact .inr (.inl rfl)
  · exact .inl ⟨_, rfl⟩
  · exact .inl ⟨_, rfl⟩
  · exact .inr (.inr ⟨_, got, rfl, rfl⟩)

/-- What `read_packet` raises: a classified error, `IdleTimeout`, or `EOFError` when the
stream ends inside a packet. -/
theorem readPacket_error {t : SocketTransport} {exn : Exn} (failed : t.readPacket.1 = .error exn) :
    (∃ error, exn = .ikvm error) ∨ exn = .idleTimeout ∨
      ∃ bytes, t.sock.items = bytesItems bytes ∧ Truncated packetFormat bytes := by
  have reads := (t.sock.readPacket_spec packetFormat).1
  rw [readPacket_fst] at failed
  cases outcome : (t.sock.readPacket packetFormat).1 with
  | ok packet =>
      rw [outcome] at failed
      cases failed
  | error fault =>
      rw [outcome] at failed reads
      cases failed
      have closes (closed : fault.IsClosed) :
          ∃ bytes, t.sock.items = bytesItems bytes ∧ Truncated packetFormat bytes :=
        reads.exists_truncated closed
      cases fault with
      | header fault =>
          rcases recvFault_cases headerLen fault with ikvm | idle | ⟨_, _, -, rfl⟩
          · exact .inl ikvm
          · exact .inr (.inl idle)
          · exact .inr (.inr (closes trivial))
      | body n fault =>
          rcases recvFault_cases n fault with ikvm | idle | ⟨_, _, -, rfl⟩
          · exact .inl ikvm
          · exact .inr (.inl idle)
          · exact .inr (.inr (closes trivial))
      | refused exn =>
          generalize (t.sock.readPacket packetFormat).2.items = rest at reads
          generalize t.sock.items = items at reads
          cases reads with
          | refused length refuses => exact .inl (bodyLen_error refuses)

/-- A stream that ends inside a packet makes `read_packet` raise `EOFError`. -/
theorem readPacket_truncated {t : SocketTransport} {bytes : Bytes}
    (front : t.sock.items = bytesItems bytes) (truncated : Truncated packetFormat bytes) :
    ∃ message, t.readPacket.1 = .error (.eofError message) := by
  rcases truncated.reads with ⟨fault, closed, reads⟩
  rw [← front] at reads
  rcases readPacket_of_reads reads with ⟨value, -⟩
  rw [value]
  rcases fault with (_ | _ | _) | _ | ⟨_, _ | _ | _⟩
  · cases closed
  · cases closed
  · exact ⟨_, rfl⟩
  · cases closed
  · cases closed
  · cases closed
  · exact ⟨_, rfl⟩

end SocketTransport

end Asmb8Ikvm.Iusb

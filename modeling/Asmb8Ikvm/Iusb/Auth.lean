import Asmb8Ikvm.Iusb.Session

/-!
# The authentication handshake

`build_auth`, `interpret_ack` and `Session._authenticate` of `iusb.py`: the
client sends the session token and waits for the redirection ACK of the BMC.

The handshake converts an idle poll into a connection error. The end of the
stream and a token that is not ASCII are not converted: they leave the function
as `EOFError` and `UnicodeEncodeError`.
-/

namespace Asmb8Ikvm.Iusb

open Bytes ByteStream

def connStatusOffset : ℕ := 30

def authTokenOffset : ℕ := 31

def authPayloadLen : ℕ := 128

def ssiAuthPayloadLen : ℕ := 240

def connOk : UInt8 := 1

def buildAuth (deviceType instanceNumber : ℤ) (token : String) (ssi : Bool := false) :
    Except Exn Bytes :=
  let payloadLen := if ssi then ssiAuthPayloadLen else authPayloadLen
  let header : Header := {
    major := iusbMajor
    minor := iusbMinor
    dataPacketLen := payloadLen
    deviceType
    protocol := 1
    direction := 128
    instanceNumber }
  let payload := (List.replicate payloadLen 0).set opcodeOffset opAuth
  let payload := payload.set connStatusOffset 0
  match PyText.encodeAscii token with
  | none => .error .unicodeEncodeError
  | some tokenBytes =>
      let stop := authTokenOffset + tokenBytes.length
      if payloadLen < stop then
        .error (protocolError
          ("iusb: token (" ++ toString tokenBytes.length ++ " bytes) does not fit in the " ++
            toString payloadLen ++ "-byte auth payload starting at offset " ++
            toString authTokenOffset)
          "iusb.build_auth")
      else .ok (header.marshal ++ overwrite payload authTokenOffset tokenBytes)

def otherIp (payload : Bytes) : String :=
  if payload.length ≤ authTokenOffset then ""
  else
    let raw := (payload.drop authTokenOffset).takeWhile fun byte => byte ≠ 0
    String.ofList (PyText.strip (PyText.decodeAsciiReplace raw))

def interpretAck (packet : Packet) (endpoint : Option String) : Except Exn Unit :=
  if packet.opcode ≠ opRedirectAck then
    .error (protocolError
      ("iusb: expected redirection ACK (0x" ++ PyText.hex2Upper opRedirectAck ++
        "), got opcode 0x" ++ PyText.hex2Upper packet.opcode)
      "iusb.authenticate" endpoint)
  else if packet.payload.length ≤ connStatusOffset then
    .error (protocolError
      ("iusb: ACK payload too short (" ++ toString packet.payload.length ++ " bytes)")
      "iusb.authenticate" endpoint)
  else
    let status := packet.payload.getD connStatusOffset 0
    if status = connOk then .ok ()
    else
      let ownerIp := otherIp packet.payload
      let detail := if ownerIp ≠ "" then " It reports being held by " ++ ownerIp ++ "." else ""
      .error (.ikvm {
        errorClass := .bmcBusy
        message :=
          "BMC rejected the media session (connectionStatus=" ++ toString status.toNat ++ ")." ++
          detail ++ " This BMC allows exactly one active iUSB/media session and has no " ++
          "server-side timeout to reclaim an abandoned one, so this is very often a stale " ++
          "session left over from a previous attach, not a protocol failure. If a previous " ++
          "session_id for this endpoint is known, detach it first (state=detached); this " ++
          "module also always attempts to reclaim any session it can find recorded for this " ++
          "endpoint before every attach. If no software reclamation clears it, a BMC cold " ++
          "reset (`ipmitool mc reset cold`, or the pyghmi equivalent) is the operator's " ++
          "escape hatch -- it does not affect host power."
        endpoint
        operation := some "iusb.authenticate" })

namespace Session

/-- The second half of `Session._authenticate`, after the packet has been sent. -/
def awaitAck (deviceType instanceNumber : ℤ) (endpoint : Option String)
    (transport : SocketTransport) : Except Exn Session × SocketTransport :=
  match transport.readPacket with
  | (.error .idleTimeout, transport) =>
      (.error (connectionError "iusb: no response to the authentication packet"
        "iusb.authenticate" endpoint), transport)
  | (.error exn, transport) => (.error exn, transport)
  | (.ok ack, transport) =>
      match interpretAck ack endpoint with
      | .error exn => (.error exn, transport)
      | .ok () => (.ok { transport, deviceType, instanceNumber }, transport)

def authenticate (deviceType instanceNumber : ℤ) (token : String) (endpoint : Option String)
    (transport : SocketTransport) : Except Exn Session × SocketTransport :=
  match buildAuth deviceType instanceNumber token with
  | .error exn => (.error exn, transport)
  | .ok authPkt =>
      match transport.writeFrame authPkt with
      | (.error exn, transport) => (.error exn, transport)
      | (.ok (), transport) => awaitAck deviceType instanceNumber endpoint transport

def fromTransport (transport : SocketTransport) (token : String)
    (deviceType : ℤ := deviceCdrom) (instanceNumber : ℤ := 0) :
    Except Exn Session × SocketTransport :=
  authenticate deviceType instanceNumber token none transport

end Session

/-- A token that is not ASCII, or a peer that closes the connection before the ACK is
complete. -/
def AuthUnclassified (token : String) (sock : Sock) : Prop :=
  PyText.isAscii token = false ∨
    authTokenOffset + token.length ≤ authPayloadLen ∧ sock.CanSend ∧
      ∃ bytes, sock.items = bytesItems bytes ∧ Truncated packetFormat bytes

theorem interpretAck_classified (packet : Packet) (endpoint : Option String) :
    Classified (interpretAck packet endpoint) := by
  unfold interpretAck
  split_ifs
  · trivial
  · trivial
  · dsimp only
    split_ifs <;> trivial

theorem buildAuth_of_isAscii (deviceType instanceNumber : ℤ) {token : String}
    (ascii : PyText.isAscii token = true) :
    (authTokenOffset + token.length ≤ authPayloadLen ∧
      ∃ authPkt, buildAuth deviceType instanceNumber token = .ok authPkt) ∨
    (¬ authTokenOffset + token.length ≤ authPayloadLen ∧
      ∃ error, buildAuth deviceType instanceNumber token = .error (.ikvm error)) := by
  obtain ⟨bytes, encoded⟩ := Option.isSome_iff_exists.mp
    ((PyText.encodeAscii_isSome token).trans ascii)
  have length := PyText.length_encodeAscii encoded
  simp only [buildAuth, encoded, length, Bool.false_eq_true, if_false]
  by_cases fits : authTokenOffset + token.length ≤ authPayloadLen
  · rw [if_neg (Nat.not_lt.mpr fits)]
    exact .inl ⟨fits, _, rfl⟩
  · rw [if_pos (Nat.lt_of_not_le fits)]
    exact .inr ⟨fits, _, rfl⟩

/-- Waiting for the ACK is classified exactly when the stream does not end in it. -/
theorem awaitAck_classified_iff (deviceType instanceNumber : ℤ) (endpoint : Option String)
    (transport : SocketTransport) :
    Classified (Session.awaitAck deviceType instanceNumber endpoint transport).1 ↔
      ¬ ∃ bytes, transport.sock.items = bytesItems bytes ∧ Truncated packetFormat bytes := by
  unfold Session.awaitAck
  constructor
  · rintro classified ⟨bytes, front, truncated⟩
    rcases SocketTransport.readPacket_truncated front truncated with ⟨message, closed⟩
    have outcome : transport.readPacket = (.error (.eofError message), transport.readPacket.2) :=
      Prod.ext closed rfl
    rw [outcome] at classified
    exact classified
  · intro whole
    rcases outcome : transport.readPacket with ⟨exn | ack, later⟩
    · have failed : transport.readPacket.1 = .error exn := by rw [outcome]
      rcases SocketTransport.readPacket_error failed with ⟨error, rfl⟩ | rfl | truncated
      · trivial
      · trivial
      · exact absurd truncated whole
    · have interpreted := interpretAck_classified ack endpoint
      dsimp only
      split
      case h_1 exn failed =>
        rw [failed, classified_error] at interpreted
        rw [classified_error]
        exact interpreted
      case h_2 => trivial

/-- The handshake is classified exactly when the token can be encoded and the peer does
not close the connection on it. -/
theorem fromTransport_classified_iff (transport : SocketTransport) (token : String)
    (deviceType instanceNumber : ℤ) :
    Classified (Session.fromTransport transport token deviceType instanceNumber).1 ↔
      ¬ AuthUnclassified token transport.sock := by
  unfold Session.fromTransport Session.authenticate AuthUnclassified
  cases ascii : PyText.isAscii token with
  | false =>
      have failed : buildAuth deviceType instanceNumber token = .error .unicodeEncodeError := by
        simp [buildAuth, PyText.encodeAscii, ascii]
      rw [failed]
      simp [Classified]
  | true =>
      rcases buildAuth_of_isAscii deviceType instanceNumber ascii with
        ⟨fits, authPkt, built⟩ | ⟨tooLong, error, failed⟩
      · rw [built]
        dsimp only
        have items := transport.writeFrame_items authPkt
        rcases transport.writeFrame_cases authPkt with
          ⟨cannotSend, _, _, error, _, written, _⟩ | ⟨canSend, written⟩
        · rw [written]
          simp [Classified, cannotSend]
        · rw [written] at items ⊢
          dsimp only at items ⊢
          rw [← items]
          simp only [fits, canSend, true_and, Bool.true_eq_false, false_or]
          exact awaitAck_classified_iff _ _ _ _
      · rw [failed]
        simp [Classified, tooLong]

end Asmb8Ikvm.Iusb

import Asmb8Ikvm.Ivtp.Transport

/-!
# The handshake and the capture of a frame

`open_channel` and `capture_one_frame` of `ivtp.py`. Both wait for a packet with
the same loop; `awaitStatus` and `awaitFrame` are the bodies of the two loops.

`ChannelUnclassified` and `CaptureUnclassified` say when the functions let an
exception through that is not an `IkvmError`. Next to the end of the stream
there is only one source of such exceptions, the encoding of the three strings
of the session request, which are encoded in the order token, client IP, user
name and checked for their lengths in between.
-/

namespace Asmb8Ikvm.Ivtp

open Bytes ByteStream

structure ChannelFacts where
  sessionAccepted : Bool
  greetingBodyLen : ℕ
  validateStatus : ℕ
  validateStatusName : String
  validateSubStatus : Option ℕ
  resumed : Bool
deriving DecidableEq, Repr

/-- The body of the loop of `open_channel`. -/
def awaitStatus (_ : Unit) (header : Header) (body : Bytes) :
    Reaction Unit (Except Exn (ℕ × Option ℕ)) :=
  if header.type = opValidateVideoSessionResponse then
    .finish (parseValidateVideoSessionResponse body)
  else if header.type = opStopSessionImmediate then
    .finish (.error (.ikvm (stopSessionError header.status)))
  else .wait ()

/-- `open_channel` from the response to VALIDATE_VIDEO_SESSION on. -/
def finishChannel (greetingBodyLen : ℕ) (transport : SocketTransport) :
    Except Exn ChannelFacts × SocketTransport :=
  match waitFor awaitStatus () transport with
  | (.error exn, transport) => (.error exn, transport)
  | (.ok (status, subStatus), transport) =>
      if status ≠ sessionValid then (.error (.ikvm (validateStatusError status)), transport)
      else
        match transport.writePacket buildResumeRedirection with
        | (.error exn, transport) => (.error exn, transport)
        | (.ok (), transport) =>
            (.ok {
              sessionAccepted := true
              greetingBodyLen
              validateStatus := status
              validateStatusName := validateStatusName status
              validateSubStatus := subStatus
              resumed := true }, transport)

/-- `open_channel` from the sending of VALIDATE_VIDEO_SESSION on. -/
def requestSession (token clientIp username : String) (greetingBodyLen : ℕ)
    (transport : SocketTransport) : Except Exn ChannelFacts × SocketTransport :=
  match buildValidateVideoSession token clientIp username with
  | .error exn => (.error exn, transport)
  | .ok data =>
      match transport.writePacket data with
      | (.error exn, transport) => (.error exn, transport)
      | (.ok (), transport) => finishChannel greetingBodyLen transport

/-- `open_channel` from the sending of GET_WEB_TOKEN on. -/
def answerGreeting (token clientIp username : String) (sendGetWebToken : Bool)
    (greetingBodyLen : ℕ) (transport : SocketTransport) :
    Except Exn ChannelFacts × SocketTransport :=
  if sendGetWebToken then
    match buildGetWebToken token with
    | .error exn => (.error exn, transport)
    | .ok data =>
        match transport.writePacket data with
        | (.error exn, transport) => (.error exn, transport)
        | (.ok (), transport) => requestSession token clientIp username greetingBodyLen transport
  else requestSession token clientIp username greetingBodyLen transport

def openChannel (token clientIp username : String) (sendGetWebToken : Bool)
    (transport : SocketTransport) : Except Exn ChannelFacts × SocketTransport :=
  match transport.readPacket with
  | (.error exn, transport) => (.error exn, transport)
  | (.ok (header, body), transport) =>
      if header.type ≠ opSessionAccepted then
        (.error (protocolError
          ("ivtp: expected the BMC's greeting to be SESSION_ACCEPTED (23), got opcode " ++
            toString header.type ++ " (pktSize=" ++ toString header.pktSize ++ ", status=" ++
            toString header.status ++ ")")
          "ivtp.open_channel"), transport)
      else answerGreeting token clientIp username sendGetWebToken body.length transport

/-- The body of the loop of `capture_one_frame`. -/
def awaitFrame (reassembler : FrameReassembler) (header : Header) (body : Bytes) :
    Reaction FrameReassembler (Except Exn Bytes) :=
  if header.type = opVideoFragment then
    match parseVideoFragment body with
    | .error exn => .finish (.error exn)
    | .ok fragment =>
        match reassembler.feed fragment.fragNum fragment.data with
        | (.error exn, _) => .finish (.error exn)
        | (.ok (some frame), _) => .finish (.ok frame)
        | (.ok none, reassembler) => .wait reassembler
  else if header.type = opStopSessionImmediate then
    .finish (.error (.ikvm (stopSessionError header.status)))
  else .wait reassembler

def captureOneFrame (requestRefresh : Bool) (transport : SocketTransport) :
    Except Exn Bytes × SocketTransport :=
  if requestRefresh then
    match transport.writePacket buildRefreshVideoScreen with
    | (.error exn, transport) => (.error exn, transport)
    | (.ok (), transport) => waitFor awaitFrame {} transport
  else waitFor awaitFrame {} transport

section Classified

/-- The stream ends while `open_channel` waits for the response. -/
def EndsBeforeStatus (items : List Item) : Prop :=
  HangsUp (fun state header => awaitStatus state (Header.ofBytes header)) packetFormat () items

/-- The stream ends while `capture_one_frame` waits for a complete frame. -/
def EndsBeforeFrame (items : List Item) : Prop :=
  HangsUp (fun state header => awaitFrame state (Header.ofBytes header)) packetFormat
    ({} : FrameReassembler) items

/-- From the sending of VALIDATE_VIDEO_SESSION on: a string that cannot be encoded is
reached, or the request is sent and the stream ends before the response. -/
def RequestUnclassified (token clientIp username : String) (sock : Sock) : Prop :=
  Unencodable token clientIp username ∨
    FitsFields token clientIp username ∧ sock.CanSend ∧ EndsBeforeStatus sock.items

/-- From the sending of GET_WEB_TOKEN on. -/
def AnswerUnclassified (token clientIp username : String) (sendGetWebToken : Bool)
    (sock : Sock) : Prop :=
  if sendGetWebToken then
    PyText.isAscii token = false ∨
      sock.CanSend ∧ RequestUnclassified token clientIp username
        { sock with sendFaults := sock.sendFaults.tail }
  else RequestUnclassified token clientIp username sock

/-- The peer closes the connection inside the greeting; or it greets with
SESSION_ACCEPTED and the rest of the handshake meets a string that cannot be encoded or
the end of the stream. -/
inductive ChannelUnclassified (token clientIp username : String) (sendGetWebToken : Bool)
    (sock : Sock) : Prop where
  | greeting (bytes : Bytes) (front : sock.items = bytesItems bytes)
      (truncated : Truncated packetFormat bytes)
  | answer (header body : Bytes) (later : Sock)
      (front : sock.items = bytesItems (header ++ body) ++ later.items)
      (faults : later.sendFaults = sock.sendFaults)
      (length : header.length = headerLen)
      (announced : packetFormat.bodyLen header = .ok body.length)
      (accepted : (Header.ofBytes header).type = opSessionAccepted)
      (unclassified : AnswerUnclassified token clientIp username sendGetWebToken later)

/-- The stream ends before a frame is complete, and the refresh, if requested, is sent. -/
def CaptureUnclassified (requestRefresh : Bool) (sock : Sock) : Prop :=
  (requestRefresh = true → sock.CanSend) ∧ EndsBeforeFrame sock.items

theorem parseValidateVideoSessionResponse_classified (body : Bytes) :
    Classified (parseValidateVideoSessionResponse body) := by
  cases body with
  | nil => trivial
  | cons status rest => trivial

theorem awaitStatus_finish_classified (state : Unit) (header : Header) (body : Bytes)
    (result : Except Exn (ℕ × Option ℕ))
    (finishes : awaitStatus state header body = .finish result) : Classified result := by
  unfold awaitStatus at finishes
  split_ifs at finishes
  · cases finishes
    exact parseValidateVideoSessionResponse_classified body
  · cases finishes
    trivial

theorem awaitFrame_finish_classified (reassembler : FrameReassembler) (header : Header)
    (body : Bytes) (result : Except Exn Bytes)
    (finishes : awaitFrame reassembler header body = .finish result) : Classified result := by
  unfold awaitFrame parseVideoFragment FrameReassembler.feed at finishes
  by_cases fragment : header.type = opVideoFragment
  · rw [if_pos fragment] at finishes
    by_cases short : body.length < 2
    · rw [if_pos short] at finishes
      cases finishes
      trivial
    · rw [if_neg short] at finishes
      dsimp only at finishes
      split_ifs at finishes <;> cases finishes <;> trivial
  · rw [if_neg fragment] at finishes
    split_ifs at finishes
    cases finishes
    trivial

/-- Waiting for the response is classified exactly when the stream does not end in it. -/
theorem finishChannel_classified_iff (greetingBodyLen : ℕ) (transport : SocketTransport) :
    Classified (finishChannel greetingBodyLen transport).1 ↔
      ¬ EndsBeforeStatus transport.sock.items := by
  rw [EndsBeforeStatus, ← waitFor_classified_iff awaitStatus_finish_classified, finishChannel]
  generalize waitFor awaitStatus () transport = outcome
  rcases outcome with ⟨exn | ⟨status, subStatus⟩, later⟩
  · simp only [classified_error]
  · dsimp only
    split_ifs with valid
    · simp [Classified]
    · rcases later.writePacket_cases buildResumeRedirection with
        ⟨_, error, final, written⟩ | ⟨_, written⟩ <;> rw [written] <;> simp [Classified]

theorem requestSession_classified_iff (token clientIp username : String) (greetingBodyLen : ℕ)
    (transport : SocketTransport) :
    Classified (requestSession token clientIp username greetingBodyLen transport).1 ↔
      ¬ RequestUnclassified token clientIp username transport.sock := by
  unfold requestSession RequestUnclassified
  rcases buildValidateVideoSession_spec token clientIp username tokenTypeWebSession with
    ⟨unencodable, failed⟩ | ⟨encodable, tooLong, error, failed⟩ | ⟨encodable, fits, data, built⟩
  · rw [failed]
    simp [Classified, unencodable]
  · rw [failed]
    simp [Classified, encodable, tooLong]
  · rw [built]
    dsimp only
    rcases transport.writePacket_cases data with
      ⟨cannotSend, error, later, written⟩ | ⟨canSend, written⟩
    · rw [written]
      simp [Classified, encodable, cannotSend]
    · rw [written]
      simp only [encodable, fits, canSend, true_and, false_or]
      exact finishChannel_classified_iff _ _

theorem answerGreeting_classified_iff (token clientIp username : String)
    (sendGetWebToken : Bool) (greetingBodyLen : ℕ) (transport : SocketTransport) :
    Classified
        (answerGreeting token clientIp username sendGetWebToken greetingBodyLen transport).1 ↔
      ¬ AnswerUnclassified token clientIp username sendGetWebToken transport.sock := by
  unfold answerGreeting AnswerUnclassified
  cases sendGetWebToken with
  | false => exact requestSession_classified_iff _ _ _ _ _
  | true =>
      simp only [if_true]
      cases ascii : PyText.isAscii token with
      | false => simp [buildGetWebToken, PyText.encodeAscii, ascii, Classified]
      | true =>
          simp only [buildGetWebToken, PyText.encodeAscii, ascii, if_true, Bool.true_eq_false,
            false_or]
          rcases transport.writePacket_cases _ with
            ⟨cannotSend, error, later, written⟩ | ⟨canSend, written⟩
          · rw [written]
            simp [Classified, cannotSend]
          · rw [written]
            simp only [canSend, true_and]
            exact requestSession_classified_iff _ _ _ _ _

theorem AnswerUnclassified.congr {token clientIp username : String} {sendGetWebToken : Bool}
    {sock sock' : Sock} (items : sock.items = sock'.items)
    (faults : sock.sendFaults = sock'.sendFaults)
    (unclassified : AnswerUnclassified token clientIp username sendGetWebToken sock) :
    AnswerUnclassified token clientIp username sendGetWebToken sock' := by
  have items' (left : List (Option String)) :
      ({ sock with sendFaults := left } : Sock).items =
        ({ sock' with sendFaults := left } : Sock).items := items
  simpa only [AnswerUnclassified, RequestUnclassified, Sock.CanSend, ← faults, ← items,
    ← items'] using unclassified

/-- Whether the handshake fails unclassified is decided by the greeting and what follows
it. -/
theorem channelUnclassified_iff {token clientIp username : String} {sendGetWebToken : Bool}
    {sock later : Sock}
    {result : Except (PacketFault Exn) (Bytes × Bytes)}
    (reads : ReadsPacket packetFormat sock.items result later.items)
    (faults : later.sendFaults = sock.sendFaults) :
    ChannelUnclassified token clientIp username sendGetWebToken sock ↔
      match result with
      | .error fault => fault.IsClosed
      | .ok (header, _) =>
          (Header.ofBytes header).type = opSessionAccepted ∧
            AnswerUnclassified token clientIp username sendGetWebToken later := by
  constructor
  · rintro (⟨bytes, front, truncated⟩ |
      ⟨header, body, later', front, faults', length, announced, accepted, unclassified⟩)
    · rw [front] at reads
      rcases truncated.reads with ⟨fault, closed, reads'⟩
      rcases reads'.unique reads with ⟨rfl, -⟩
      exact closed
    · rw [front] at reads
      rcases (ReadsPacket.whole length announced).unique reads with ⟨rfl, left⟩
      exact ⟨accepted, unclassified.congr left (faults'.trans faults.symm)⟩
  · intro outcome
    rcases result with fault | ⟨header, body⟩
    · rcases reads.exists_truncated outcome with ⟨bytes, front, truncated⟩
      exact .greeting bytes front truncated
    · rcases outcome with ⟨accepted, unclassified⟩
      generalize front : sock.items = items at reads
      generalize left : later.items = rest at reads
      cases reads with
      | whole length announced =>
          subst left
          exact .answer header body later front faults length announced accepted unclassified

/-- The handshake is classified exactly when the strings it reaches can be encoded and
the peer does not close the connection on it. -/
theorem openChannel_classified_iff (token clientIp username : String) (sendGetWebToken : Bool)
    (transport : SocketTransport) :
    Classified (openChannel token clientIp username sendGetWebToken transport).1 ↔
      ¬ ChannelUnclassified token clientIp username sendGetWebToken transport.sock := by
  rcases transport.sock.readPacket_spec packetFormat with ⟨reads, advances⟩
  unfold openChannel
  rw [SocketTransport.readPacket_eq]
  generalize (transport.sock.readPacket packetFormat).1 = result at reads ⊢
  generalize (transport.sock.readPacket packetFormat).2 = later at reads advances ⊢
  rw [channelUnclassified_iff reads advances.sendFaults]
  rcases result with fault | ⟨header, body⟩
  · simp only [Except.mapError, Except.map, classified_error, packetExn_isIkvm_iff reads]
  · simp only [Except.mapError, Except.map]
    by_cases accepted : (Header.ofBytes header).type = opSessionAccepted
    · rw [if_neg (not_not.mpr accepted)]
      simp only [accepted, true_and]
      exact answerGreeting_classified_iff _ _ _ _ _ _
    · rw [if_pos accepted]
      simp [Classified, protocolError, accepted]

theorem captureOneFrame_classified_iff (requestRefresh : Bool) (transport : SocketTransport) :
    Classified (captureOneFrame requestRefresh transport).1 ↔
      ¬ CaptureUnclassified requestRefresh transport.sock := by
  unfold captureOneFrame CaptureUnclassified EndsBeforeFrame
  cases requestRefresh with
  | false =>
      simp only [Bool.false_eq_true, if_false, false_implies, true_and]
      exact waitFor_classified_iff awaitFrame_finish_classified
  | true =>
      simp only [if_true, true_implies]
      rcases transport.writePacket_cases buildRefreshVideoScreen with
        ⟨cannotSend, error, later, written⟩ | ⟨canSend, written⟩
      · rw [written]
        simp [Classified, cannotSend]
      · rw [written]
        simp only [canSend, true_and]
        exact waitFor_classified_iff awaitFrame_finish_classified

end Classified

end Asmb8Ikvm.Ivtp

import Asmb8Ikvm.Ivtp.Reassembly

/-!
# The order of the handshake

What `open_channel` sends is a function of the packets it is given: nothing
before the greeting, the request once the greeting is SESSION_ACCEPTED, and
RESUME_REDIRECTION once the first answer to the request grants the session.
Packets that are not an answer change nothing, wherever they stand.

The input is any sequence of packets followed by something that is not a whole
packet: the end of the stream, a timeout, a socket error or a refused header.
The messages are meant to go out in order until a `sendall` fails; `delivered`
has those that do.
-/

namespace Asmb8Ikvm.Ivtp

open Bytes ByteStream

/-- No further packet can be read. -/
def RunsOut (rest : List Item) : Prop :=
  ∃ fault rest', ReadsPacket packetFormat rest (.error fault) rest'

/-- The packets that end the wait of `open_channel`: types 19 and 8. -/
def WirePacket.isAnswer (packet : WirePacket) : Bool :=
  packet.type == 19 || packet.type == 8

/-- The sub-status of the session, if the first answer among the packets grants one: it has
type 19 and a body whose byte 0 is 1. -/
def granted (packets : List WirePacket) : Option (Option ℕ) :=
  match packets.find? WirePacket.isAnswer with
  | none => none
  | some packet =>
      if packet.type = 19 ∧ packet.body.head? = some 1 then
        some (packet.body.tail.head?.map UInt8.toNat)
      else none

/-- The messages that go out when they are sent in order up to the first `sendall` that
fails. -/
def delivered : List (Option String) → List Bytes → List Bytes
  | [], messages => messages
  | none :: faults, message :: messages => message :: delivered faults messages
  | none :: _, [] => []
  | some _ :: _, _ => []

/-- The messages `open_channel` is to send, in order: `requests` are those that answer
SESSION_ACCEPTED. -/
def handshakeMessages (requests : List Bytes) : List WirePacket → List Bytes
  | [] => []
  | greeting :: later =>
      if greeting.type = 23 then
        requests ++ if (granted later).isSome then [buildResumeRedirection] else []
      else []

/-- What `open_channel` returns. -/
def channelFacts (greetingBodyLen : ℕ) (subStatus : Option ℕ) : ChannelFacts where
  sessionAccepted := true
  greetingBodyLen
  validateStatus := 1
  validateStatusName := "valid_session"
  validateSubStatus := subStatus
  resumed := true

theorem waitFor_advances {σ α : Type*} (react : σ → Header → Bytes → Reaction σ (Except Exn α))
    (state : σ) (transport : SocketTransport) :
    transport.sock.Advances (waitFor react state transport).2.sock := by
  refine Loop.run_spec (fun s : SocketTransport × σ => transport.sock.Advances s.1.sock)
    (fun _ (s : SocketTransport × σ) => transport.sock.Advances s.1.sock) ?_ (.refl _)
  intro s advances
  have further : s.1.sock.Advances s.1.readPacket.2.sock := by
    rw [SocketTransport.readPacket_eq]
    exact (s.1.sock.readPacket_spec packetFormat).2
  have whole := advances.trans further
  unfold waitRound
  generalize s.1.readPacket = outcome at whole ⊢
  rcases outcome with ⟨exn | ⟨header, body⟩, later⟩
  · exact whole
  · dsimp only
    cases react s.2 header body with
    | finish result => exact whole
    | wait state => exact whole

section Waiting

variable {transport : SocketTransport} {packets : List WirePacket} {rest : List Item}

theorem awaitStatus_packet (packet : WirePacket) :
    awaitStatus () packet.header packet.body =
      if packet.type = 19 then .finish (parseValidateVideoSessionResponse packet.body)
      else if packet.type = 8 then
        .finish (.error (.ikvm (stopSessionError packet.status.toNat)))
      else .wait () := by
  have response : packet.header.type = opValidateVideoSessionResponse ↔ packet.type = 19 := by
    rw [← UInt16.toNat_inj]
    exact Int.ofNat_inj
  have stop : packet.header.type = opStopSessionImmediate ↔ packet.type = 8 := by
    rw [← UInt16.toNat_inj]
    exact Int.ofNat_inj
  simp only [awaitStatus, response, stop]
  rfl

/-- The wait is decided by the first answer. -/
theorem waitFor_awaitStatus (bounded : ∀ packet ∈ packets, packet.body.length ≤ maxFrameBytes)
    (runsOut : RunsOut rest)
    (front : transport.sock.items = bytesItems (packets.flatMap WirePacket.bytes) ++ rest) :
    match packets.find? WirePacket.isAnswer with
    | none => ∃ exn, (waitFor awaitStatus () transport).1 = .error exn
    | some packet => (waitFor awaitStatus () transport).1 =
        if packet.type = 19 then parseValidateVideoSessionResponse packet.body
        else .error (.ikvm (stopSessionError packet.status.toNat)) := by
  induction packets generalizing transport with
  | nil =>
      rcases runsOut with ⟨fault, rest', reads⟩
      exact ⟨_, waitFor_error front reads⟩
  | cons packet packets ih =>
      rw [List.flatMap_cons, bytesItems_append, List.append_assoc] at front
      rw [List.forall_mem_cons] at bounded
      have reads :=
        WirePacket.reads bounded.1 (bytesItems (packets.flatMap WirePacket.bytes) ++ rest)
      rw [← front] at reads
      have parsed : Header.ofBytes packet.header.marshal = packet.header :=
        WirePacket.ofBytes_marshal_header (lt_of_le_of_lt bounded.1 (by decide))
      have reaction := awaitStatus_packet packet
      rw [← parsed] at reaction
      by_cases response : packet.type = 19
      · rw [if_pos response] at reaction
        simp only [List.find?_cons, WirePacket.isAnswer, response, beq_self_eq_true, Bool.true_or,
          if_true]
        exact waitFor_finish reads reaction
      by_cases stop : packet.type = 8
      · rw [if_neg response, if_pos stop] at reaction
        simp only [List.find?_cons, WirePacket.isAnswer, stop, beq_self_eq_true, Bool.or_true,
          if_neg (show ¬ (8 : UInt16) = 19 by decide)]
        exact waitFor_finish reads reaction
      · rw [if_neg response, if_neg stop] at reaction
        rcases waitFor_wait reads reaction with ⟨later, left, same⟩
        have other : packet.isAnswer = false := by
          simp [WirePacket.isAnswer, response, stop]
        rw [List.find?_cons, other, same]
        exact ih bounded.2 left

/-- The wait yields the status of a valid session exactly when the session is granted. -/
theorem waitFor_awaitStatus_valid_iff
    (bounded : ∀ packet ∈ packets, packet.body.length ≤ maxFrameBytes)
    (runsOut : RunsOut rest)
    (front : transport.sock.items = bytesItems (packets.flatMap WirePacket.bytes) ++ rest)
    (subStatus : Option ℕ) :
    (waitFor awaitStatus () transport).1 = .ok (sessionValid, subStatus) ↔
      granted packets = some subStatus := by
  have decided := waitFor_awaitStatus bounded runsOut front
  unfold granted
  generalize packets.find? WirePacket.isAnswer = answer at decided ⊢
  rcases answer with _ | ⟨type, status, body⟩
  · rcases decided with ⟨exn, failed⟩
    simp [failed]
  · dsimp only at decided ⊢
    rw [decided]
    by_cases response : type = 19
    · rcases body with _ | ⟨head, tail⟩
      · simp [response, parseValidateVideoSessionResponse]
      · have valid : head.toNat = sessionValid ↔ head = 1 := by
          rw [← UInt8.toNat_inj]
          rfl
        simp only [response, if_true, parseValidateVideoSessionResponse, Except.ok.injEq,
          Prod.mk.injEq, valid, List.head?_cons, List.tail_cons, true_and, Option.some.injEq]
        by_cases one : head = 1 <;> simp [one]
    · simp [response]

end Waiting

theorem SocketTransport.sent_writePacket_of_not {transport : SocketTransport}
    (cannotSend : ¬ transport.sock.CanSend) (message : Bytes) :
    (transport.writePacket message).2.sock.sent = transport.sock.sent := by
  rcases transport with ⟨⟨inbound, sendFaults, received, sent⟩⟩
  rcases sendFaults with _ | ⟨_ | text, faults⟩
  · exact absurd rfl cannotSend
  · exact absurd rfl cannotSend
  · rfl

section Order

variable {transport : SocketTransport} {later : List WirePacket} {rest : List Item}
  {greetingBodyLen : ℕ} {message : Bytes} {messages : List Bytes}

theorem delivered_of_canSend {sock : Sock} (canSend : sock.CanSend) (message : Bytes)
    (messages : List Bytes) :
    delivered sock.sendFaults (message :: messages) =
      message :: delivered sock.sendFaults.tail messages := by
  rcases sock with ⟨inbound, sendFaults, received, sent⟩
  rcases sendFaults with _ | ⟨_ | text, faults⟩
  · simp only [delivered, List.tail_nil]
  · simp only [delivered, List.tail_cons]
  · cases canSend

theorem delivered_of_not_canSend {sock : Sock} (cannotSend : ¬ sock.CanSend)
    (messages : List Bytes) : delivered sock.sendFaults messages = [] := by
  rcases sock with ⟨inbound, sendFaults, received, sent⟩
  rcases sendFaults with _ | ⟨_ | text, faults⟩
  · exact absurd rfl cannotSend
  · exact absurd rfl cannotSend
  · simp only [delivered]

theorem delivered_nil (faults : List (Option String)) : delivered faults [] = [] := by
  rcases faults with _ | ⟨_ | text, faults⟩ <;> rfl

/-- The outcome of a part of `open_channel` that is to send the messages: they go out in
order, and the part returns exactly when the last of them, RESUME_REDIRECTION, does. -/
def Follows (later : List WirePacket) (greetingBodyLen : ℕ) (messages : List Bytes)
    (transport : SocketTransport) (outcome : Except Exn ChannelFacts × SocketTransport) : Prop :=
  outcome.2.sock.sent =
      transport.sock.sent ++ delivered transport.sock.sendFaults messages ∧
    ∀ facts, outcome.1 = .ok facts ↔
      buildResumeRedirection ∈ delivered transport.sock.sendFaults messages ∧
        ∃ subStatus, granted later = some subStatus ∧ facts = channelFacts greetingBodyLen subStatus

theorem Follows.silent {exn : Exn} {final : SocketTransport}
    (sent : final.sock.sent = transport.sock.sent) :
    Follows later greetingBodyLen [] transport (.error exn, final) := by
  refine ⟨?_, ?_⟩
  · rw [delivered_nil, List.append_nil, sent]
  · simp [delivered_nil]

/-- Sending one more message first. -/
theorem Follows.send {next : SocketTransport → Except Exn ChannelFacts × SocketTransport}
    (other : message ≠ buildResumeRedirection)
    (follows : ∀ transport' : SocketTransport, transport'.sock.items = transport.sock.items →
      Follows later greetingBodyLen messages transport' (next transport')) :
    Follows later greetingBodyLen (message :: messages) transport
      (match transport.writePacket message with
        | (.error exn, transport) => (.error exn, transport)
        | (.ok (), transport) => next transport) := by
  unfold Follows
  rcases transport.writePacket_cases message with
    ⟨cannotSend, error, final, written⟩ | ⟨canSend, written⟩
  · have sent := SocketTransport.sent_writePacket_of_not cannotSend message
    rw [written] at sent
    rw [written, delivered_of_not_canSend cannotSend]
    simpa using sent
  · rw [written, delivered_of_canSend canSend]
    have rest := follows
      { sock := { transport.sock with
          sendFaults := transport.sock.sendFaults.tail
          sent := transport.sock.sent ++ [message] } } rfl
    simpa [Follows, other.symm] using rest

theorem finishChannel_follows
    (bounded : ∀ packet ∈ later, packet.body.length ≤ maxFrameBytes) (runsOut : RunsOut rest)
    (front : transport.sock.items = bytesItems (later.flatMap WirePacket.bytes) ++ rest) :
    Follows later greetingBodyLen
      (if (granted later).isSome then [buildResumeRedirection] else []) transport
      (finishChannel greetingBodyLen transport) := by
  have valid := waitFor_awaitStatus_valid_iff bounded runsOut front
  have advances := waitFor_advances awaitStatus () transport
  unfold finishChannel
  generalize waitFor awaitStatus () transport = outcome at valid advances ⊢
  rcases outcome with ⟨exn | ⟨status, subStatus⟩, waited⟩
  · have refused : granted later = none := by
      cases grant : granted later with
      | none => rfl
      | some subStatus => cases (valid subStatus).mpr grant
    rw [refused]
    exact .silent advances.sent
  · dsimp only at valid advances ⊢
    by_cases accepted : status = sessionValid
    · subst accepted
      have grant : granted later = some subStatus := (valid subStatus).mp rfl
      unfold Follows
      rw [if_neg (not_not.mpr rfl), grant, Option.isSome_some, if_pos rfl,
        ← advances.sendFaults, ← advances.sent]
      rcases waited.writePacket_cases buildResumeRedirection with
        ⟨cannotSend, error, final, written⟩ | ⟨canSend, written⟩
      · have sent := SocketTransport.sent_writePacket_of_not cannotSend buildResumeRedirection
        rw [written] at sent
        rw [written, delivered_of_not_canSend cannotSend]
        simpa using sent
      · rw [written, delivered_of_canSend canSend, delivered_nil]
        refine ⟨rfl, ?_⟩
        intro facts
        simp only [Except.ok.injEq, List.mem_singleton, true_and, Option.some.injEq,
          exists_eq_left']
        exact eq_comm
    · have refused : granted later = none := by
        cases grant : granted later with
        | none => rfl
        | some subStatus' =>
            have same := (valid subStatus').mpr grant
            simp only [Except.ok.injEq, Prod.mk.injEq] at same
            exact absurd same.1 accepted
      rw [if_pos accepted, refused]
      exact .silent advances.sent

theorem buildGetWebToken_eq {token : String} (ascii : PyText.isAscii token = true) :
    ∃ data, buildGetWebToken token = .ok data ∧ data ≠ buildResumeRedirection := by
  simp only [buildGetWebToken, PyText.encodeAscii, ascii, if_true]
  refine ⟨_, rfl, ?_⟩
  intro same
  have heads := congrArg List.head? same
  revert heads
  simp [Header.marshal, le, opGetWebToken, buildResumeRedirection, bodyless, opResumeRedirection]

theorem head_buildValidateVideoSession {token clientIp username : String} {data : Bytes}
    (built : buildValidateVideoSession token clientIp username = .ok data) :
    data.head? = some 18 := by
  simp only [buildValidateVideoSession, bind, Except.bind] at built
  split at built
  case h_1 => cases built
  case h_2 =>
    split at built
    case h_1 => cases built
    case h_2 =>
      split at built
      case h_1 => cases built
      case h_2 =>
        split_ifs at built
        cases built
        rfl

theorem buildValidateVideoSession_eq {token clientIp username : String}
    (asciiToken : PyText.isAscii token = true) (asciiClientIp : PyText.isAscii clientIp = true)
    (asciiUsername : PyText.isAscii username = true)
    (fits : FitsFields token clientIp username) :
    ∃ data, buildValidateVideoSession token clientIp username = .ok data ∧
      data ≠ buildResumeRedirection := by
  rcases buildValidateVideoSession_spec token clientIp username tokenTypeWebSession with
    ⟨unencodable, -⟩ | ⟨-, tooLong, -⟩ | ⟨-, -, data, built⟩
  · simp [Unencodable, asciiToken, asciiClientIp, asciiUsername] at unencodable
  · exact absurd fits tooLong
  · refine ⟨data, built, ?_⟩
    rintro rfl
    cases head_buildValidateVideoSession built

theorem openChannel_error {exn : Exn} {final : SocketTransport} {token clientIp username : String}
    {sendGetWebToken : Bool} (failed : transport.readPacket = (.error exn, final)) :
    openChannel token clientIp username sendGetWebToken transport = (.error exn, final) := by
  rw [openChannel, failed]

theorem openChannel_refuses {header : Header} {body : Bytes} {final : SocketTransport}
    {token clientIp username : String} {sendGetWebToken : Bool}
    (read : transport.readPacket = (.ok (header, body), final))
    (unexpected : header.type ≠ opSessionAccepted) :
    ∃ exn, openChannel token clientIp username sendGetWebToken transport =
      (.error exn, final) := by
  rw [openChannel, read]
  dsimp only
  rw [if_pos unexpected]
  exact ⟨_, rfl⟩

theorem openChannel_answers {header : Header} {body : Bytes} {final : SocketTransport}
    {token clientIp username : String} {sendGetWebToken : Bool}
    (read : transport.readPacket = (.ok (header, body), final))
    (accepted : header.type = opSessionAccepted) :
    openChannel token clientIp username sendGetWebToken transport =
      answerGreeting token clientIp username sendGetWebToken body.length final := by
  rw [openChannel, read]
  dsimp only
  rw [if_neg (not_not.mpr accepted)]

theorem answerGreeting_follows {token clientIp username : String} {sendGetWebToken : Bool}
    {getWebToken validate : Bytes}
    (builtToken : buildGetWebToken token = .ok getWebToken)
    (otherToken : getWebToken ≠ buildResumeRedirection)
    (built : buildValidateVideoSession token clientIp username = .ok validate)
    (other : validate ≠ buildResumeRedirection)
    (bounded : ∀ packet ∈ later, packet.body.length ≤ maxFrameBytes) (runsOut : RunsOut rest)
    (front : transport.sock.items = bytesItems (later.flatMap WirePacket.bytes) ++ rest) :
    Follows later greetingBodyLen
      (((if sendGetWebToken then [getWebToken] else []) ++ [validate]) ++
        if (granted later).isSome then [buildResumeRedirection] else [])
      transport
      (answerGreeting token clientIp username sendGetWebToken greetingBodyLen transport) := by
  have request (transport' : SocketTransport)
      (items : transport'.sock.items = transport.sock.items) :
      Follows later greetingBodyLen
        (validate :: if (granted later).isSome then [buildResumeRedirection] else []) transport'
        (requestSession token clientIp username greetingBodyLen transport') := by
    unfold requestSession
    rw [built]
    refine Follows.send other ?_
    intro transport'' items'
    exact finishChannel_follows bounded runsOut ((items'.trans items).trans front)
  unfold answerGreeting
  cases sendGetWebToken with
  | false => exact request transport rfl
  | true =>
      rw [if_pos rfl, if_pos rfl, builtToken]
      exact Follows.send otherToken request

/-- For every sequence of packets, `open_channel` sends exactly the messages of the
handshake that belong to it, in order, and it returns exactly when RESUME_REDIRECTION has
been sent. With no packet at all it sends nothing: it reads the first one before it sends. -/
theorem openChannel_order {token clientIp username : String} {sendGetWebToken : Bool}
    {packets : List WirePacket}
    (asciiToken : PyText.isAscii token = true) (asciiClientIp : PyText.isAscii clientIp = true)
    (asciiUsername : PyText.isAscii username = true)
    (fits : FitsFields token clientIp username)
    (bounded : ∀ packet ∈ packets, packet.body.length ≤ maxFrameBytes) (runsOut : RunsOut rest)
    (front : transport.sock.items = bytesItems (packets.flatMap WirePacket.bytes) ++ rest) :
    ∃ getWebToken validate messages,
      buildGetWebToken token = .ok getWebToken ∧
      buildValidateVideoSession token clientIp username = .ok validate ∧
      messages = delivered transport.sock.sendFaults
        (handshakeMessages ((if sendGetWebToken then [getWebToken] else []) ++ [validate])
          packets) ∧
      (openChannel token clientIp username sendGetWebToken transport).2.sock.sent =
        transport.sock.sent ++ messages ∧
      ∀ facts, (openChannel token clientIp username sendGetWebToken transport).1 = .ok facts ↔
        buildResumeRedirection ∈ messages ∧
          ∃ greeting later subStatus, packets = greeting :: later ∧
            granted later = some subStatus ∧
            facts = channelFacts greeting.body.length subStatus := by
  rcases buildGetWebToken_eq asciiToken with ⟨getWebToken, builtToken, otherToken⟩
  rcases buildValidateVideoSession_eq asciiToken asciiClientIp asciiUsername fits with
    ⟨validate, built, other⟩
  refine ⟨getWebToken, validate, _, builtToken, built, rfl, ?_⟩
  have unsent : transport.readPacket.2.sock.sent = transport.sock.sent ∧
      transport.readPacket.2.sock.sendFaults = transport.sock.sendFaults := by
    have advances := (transport.sock.readPacket_spec packetFormat).2
    rw [SocketTransport.readPacket_eq]
    exact ⟨advances.sent, advances.sendFaults⟩
  rcases packets with _ | ⟨greeting, later⟩
  · rcases runsOut with ⟨fault, rest', reads⟩
    rw [show rest = transport.sock.items by rw [front]; rfl] at reads
    have failed := (SocketTransport.readPacket_of_reads reads).1
    rw [openChannel_error (Prod.ext failed rfl)]
    simp [handshakeMessages, delivered_nil, unsent.1]
  · rw [List.flatMap_cons, bytesItems_append, List.append_assoc] at front
    rw [List.forall_mem_cons] at bounded
    have reads := WirePacket.reads bounded.1
      (bytesItems (later.flatMap WirePacket.bytes) ++ rest)
    rw [← front] at reads
    rcases SocketTransport.readPacket_of_reads reads with ⟨value, left⟩
    have parsed : Header.ofBytes greeting.header.marshal = greeting.header :=
      WirePacket.ofBytes_marshal_header (lt_of_le_of_lt bounded.1 (by decide))
    have read : transport.readPacket =
        (.ok (greeting.header, greeting.body), transport.readPacket.2) := by
      refine Prod.ext ?_ rfl
      rw [value]
      simp only [Except.mapError, Except.map, parsed]
    have greets : greeting.header.type = opSessionAccepted ↔ greeting.type = 23 := by
      rw [← UInt16.toNat_inj]
      exact Int.ofNat_inj
    by_cases accepted : greeting.type = 23
    · rw [openChannel_answers read (greets.mpr accepted)]
      have follows : Follows later greeting.body.length _ _
          (answerGreeting token clientIp username sendGetWebToken greeting.body.length
            transport.readPacket.2) :=
        answerGreeting_follows builtToken otherToken built other bounded.2 runsOut left
      rcases follows with ⟨sent, returns⟩
      rw [unsent.2] at sent returns
      rw [handshakeMessages, if_pos accepted]
      refine ⟨by rw [sent, unsent.1], ?_⟩
      intro facts
      rw [returns facts]
      simp
    · rcases openChannel_refuses read (mt greets.mp accepted) with ⟨exn, failed⟩
      rw [failed, handshakeMessages, if_neg accepted]
      simp [delivered_nil, unsent.1]

/-- A handshake with a packet of another type before the answer. -/
theorem openChannel_granted :
    ∃ facts, (openChannel "token" "10.0.0.1" "admin" true
      (delivering [{ type := 23, body := [] }, { type := 24, body := [1] },
        { type := 19, body := [1, 5] }, { type := 8, body := [] }])).1 = .ok facts ∧
      facts.validateSubStatus = some 5 := by
  have ended : Truncated packetFormat [] := .inl (by decide)
  rcases ended.reads with ⟨fault, -, reads⟩
  rcases @openChannel_order _ [] "token" "10.0.0.1" "admin" true
      [{ type := 23, body := [] }, { type := 24, body := [1] },
        { type := 19, body := [1, 5] }, { type := 8, body := [] }]
      rfl rfl rfl ⟨by decide, by decide, by decide⟩ (by decide) ⟨fault, [], reads⟩
      (items_delivering _) with
    ⟨getWebToken, validate, messages, -, -, rfl, -, returns⟩
  refine ⟨channelFacts 0 (some 5), (returns _).mpr ⟨?_, _, _, some 5, rfl, rfl, rfl⟩, rfl⟩
  simp [handshakeMessages, delivered, delivering, granted, WirePacket.isAnswer]

end Order

end Asmb8Ikvm.Ivtp

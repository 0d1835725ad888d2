import Asmb8Ikvm.Errors
import Asmb8Ikvm.Lib.Text

/-!
# IVTP packets

The pure part of `plugins/module_utils/ivtp.py`: the 8-byte header, the packets
the client builds, the responses it parses, and the reassembly of video frames
out of numbered fragments.

`Header.parse` cannot fail on the eight bytes of a complete header, and it reads
back what `Header.marshal` has written, reduced to the widths of the fields.
-/

namespace Asmb8Ikvm.Ivtp

open Bytes

def headerLen : ℕ := 8

structure Header where
  type : ℤ
  pktSize : ℤ := 0
  status : ℤ := 0
deriving DecidableEq, Repr

namespace Header

/-- `Header.marshal`: `struct.pack("<HIH", ...)` of the masked fields. -/
def marshal (h : Header) : Bytes :=
  le 2 (h.type % 2 ^ 16).toNat ++ le 4 (h.pktSize % 2 ^ 32).toNat ++
    le 2 (h.status % 2 ^ 16).toNat

/-- `struct.unpack_from("<HIH", data, 0)`. -/
def ofBytes (data : Bytes) : Header where
  type := ofLE (slice data 0 2)
  pktSize := ofLE (slice data 2 4)
  status := ofLE (slice data 6 2)

def parse (data : Bytes) : Except Exn Header :=
  if data.length < headerLen then
    .error (protocolError
      ("ivtp: short header: " ++ toString data.length ++ " bytes (need " ++
        toString headerLen ++ ")")
      "ivtp.parse_header")
  else .ok (ofBytes data)

theorem parse_of_length {data : Bytes} (length : data.length = headerLen) :
    parse data = .ok (ofBytes data) := by
  rw [parse, if_neg (by omega)]

@[simp]
theorem length_marshal (h : Header) : h.marshal.length = headerLen := by
  simp [marshal, headerLen]

/-- The header with every field reduced to its width on the wire. -/
def reduced (h : Header) : Header where
  type := h.type % 2 ^ 16
  pktSize := h.pktSize % 2 ^ 32
  status := h.status % 2 ^ 16

theorem ofBytes_marshal (h : Header) : ofBytes h.marshal = h.reduced := by
  have type : slice h.marshal 0 2 = le 2 (h.type % 2 ^ 16).toNat := by
    simp [slice, marshal]
  have pktSize : slice h.marshal 2 4 = le 4 (h.pktSize % 2 ^ 32).toNat := by
    simp [slice, marshal]
  have status : slice h.marshal 6 2 = le 2 (h.status % 2 ^ 16).toNat := by
    rw [slice, marshal, List.drop_left' (by simp), List.take_of_length_le (by simp)]
  simp only [ofBytes, reduced, type, pktSize, status, ofLE_le, mk.injEq]
  refine ⟨?_, ?_, ?_⟩ <;> omega

end Header

def opRefreshVideoScreen : ℤ := 5

def opResumeRedirection : ℤ := 6

def opStopSessionImmediate : ℤ := 8

def opValidateVideoSession : ℤ := 18

def opValidateVideoSessionResponse : ℤ := 19

def opGetWebToken : ℤ := 21

def opSessionAccepted : ℤ := 23

def opVideoFragment : ℤ := 25

def tokenTypeWebSession : ℤ := 0

def tokenFieldLen : ℕ := 130

def ipFieldLen : ℕ := 65

def usernameFieldLen : ℕ := 129

def videoPacketSize : ℕ := tokenFieldLen + ipFieldLen + usernameFieldLen

def fixedAscii (value : String) (width : ℕ) (field operation : String) : Except Exn Bytes :=
  match PyText.encodeAscii value with
  | none => .error .unicodeEncodeError
  | some encoded =>
      if width < encoded.length then
        .error (protocolError
          ("ivtp: " ++ field ++ " (" ++ toString encoded.length ++
            " bytes) does not fit in its " ++ toString width ++ "-byte fixed-width field")
          operation)
      else .ok (encoded ++ List.replicate (width - encoded.length) 0)

def buildValidateVideoSession (token clientIp username : String)
    (tokenType : ℤ := tokenTypeWebSession) : Except Exn Bytes := do
  let operation := "ivtp.build_validate_video_session"
  let tokenBytes ← fixedAscii token (tokenFieldLen - 1) "token" operation
  let tokenField := [lowByte tokenType] ++ tokenBytes
  let ipField ← fixedAscii clientIp ipFieldLen "client_ip" operation
  let usernameField ← fixedAscii username usernameFieldLen "username" operation
  let body := tokenField ++ ipField ++ usernameField
  if body.length ≠ videoPacketSize then
    .error (.assertionError
      ("ivtp: VALIDATE_VIDEO_SESSION body is " ++ toString body.length ++ " bytes, expected " ++
        toString videoPacketSize))
  else
    let header : Header := {
      type := opValidateVideoSession
      pktSize := body.length
      status := 0 }
    .ok (header.marshal ++ body)

def buildGetWebToken (token : String) : Except Exn Bytes :=
  match PyText.encodeAscii token with
  | none => .error .unicodeEncodeError
  | some body =>
      let header : Header := { type := opGetWebToken, pktSize := body.length, status := 0 }
      .ok (header.marshal ++ body)

def bodyless (opcode : ℤ) (status : ℤ := 0) : Bytes :=
  ({ type := opcode, pktSize := 0, status } : Header).marshal

def buildResumeRedirection : Bytes :=
  bodyless opResumeRedirection

def buildRefreshVideoScreen : Bytes :=
  bodyless opRefreshVideoScreen

def sessionInvalid : ℕ := 0

def sessionValid : ℕ := 1

def sessionKvmDisabled : ℕ := 2

def sessionInvalidVideoToken : ℕ := 3

def sessionInvalidCdromToken : ℕ := 4

def sessionInvalidFloppyToken : ℕ := 5

def validateStatusName (status : ℕ) : String :=
  if status = sessionInvalid then "invalid_session"
  else if status = sessionValid then "valid_session"
  else if status = sessionKvmDisabled then "kvm_disabled"
  else if status = sessionInvalidVideoToken then "invalid_video_session_token"
  else if status = sessionInvalidCdromToken then "invalid_cdrom_session_token"
  else if status = sessionInvalidFloppyToken then "invalid_floppy_session_token"
  else "unknown(" ++ toString status ++ ")"

def parseValidateVideoSessionResponse (body : Bytes) : Except Exn (ℕ × Option ℕ) :=
  match body with
  | [] =>
      .error (protocolError
        "ivtp: VALIDATE_VIDEO_SESSION_RESPONSE body is empty (expected at least 1 status byte)"
        "ivtp.parse_validate_video_session_response")
  | status :: rest => .ok (status.toNat, rest.head?.map UInt8.toNat)

def validateStatusError (status : ℕ) (endpoint : Option String := none) : IkvmError :=
  let name := validateStatusName status
  let operation := some "ivtp.open_channel"
  let reported := "(status=" ++ toString status ++ " " ++ name ++ ")"
  if status = sessionKvmDisabled then
    { errorClass := .unsupportedCapability
      message := "BMC reports the KVM/video channel is disabled for this session " ++ reported
      endpoint
      operation }
  else if status ∈ [sessionInvalid, sessionInvalidVideoToken, sessionInvalidCdromToken,
      sessionInvalidFloppyToken] then
    { errorClass := .authentication
      message := "BMC rejected the KVM/video session token " ++ reported
      endpoint
      operation }
  else
    { errorClass := .protocol
      message := "BMC returned an unrecognised VALIDATE_VIDEO_SESSION_RESPONSE status " ++
        toString status ++ " (" ++ name ++ ")"
      endpoint
      operation }

def stopGeneric : ℤ := 2

def stopConfChange : ℤ := 5

def stopWebLogout : ℤ := 7

def stopLicenseExpired : ℤ := 8

def stopTimedOut : ℤ := 9

def stopKvmDisconnect : ℤ := 10

def stopReasonName (status : ℤ) : String :=
  if status = stopGeneric then "generic"
  else if status = stopConfChange then "conf_change"
  else if status = stopWebLogout then "web_logout"
  else if status = stopLicenseExpired then "license_expired"
  else if status = stopTimedOut then "timed_out"
  else if status = stopKvmDisconnect then "kvm_disconnect"
  else "unknown(" ++ toString status ++ ")"

def stopSessionError (status : ℤ) (endpoint : Option String := none) : IkvmError :=
  let name := stopReasonName status
  let operation := some "ivtp.open_channel"
  let reported := "(status=" ++ toString status ++ " " ++ name ++ ")"
  if status = stopWebLogout then
    { errorClass := .authentication
      message := "BMC stopped the KVM session: the underlying web session was logged out " ++
        reported
      endpoint
      operation }
  else if status = stopLicenseExpired then
    { errorClass := .unsupportedCapability
      message := "BMC stopped the KVM session: KVM licensing has expired " ++ reported
      endpoint
      operation }
  else if status = stopTimedOut then
    { errorClass := .timeout
      message := "BMC stopped the KVM session: server-side inactivity timeout " ++ reported ++
        ". This is the BMC's own 1800s KVM session timeout, distinct from this module's own " ++
        "connect/handshake timeouts."
      endpoint
      operation }
  else if status = stopKvmDisconnect then
    { errorClass := .invalidState
      message := "BMC stopped the KVM session: another client requested a KVM disconnect " ++
        reported
      endpoint
      operation }
  else
    { errorClass := .remoteOperation
      message := "BMC stopped the KVM session " ++ reported
      endpoint
      operation }

def fragLastBit : ℕ := 0x8000

def fragNumMask : ℕ := 0x7FFF

def maxFrameBytes : ℕ := 9216000

/-- The first fragment of a frame: `(frag_num & _FRAG_NUM_MASK) == 0`. -/
def isFirst (fragNum : ℕ) : Bool :=
  fragNum &&& fragNumMask == 0

/-- The last fragment of a frame: `bool(frag_num & _FRAG_LAST_BIT)`. -/
def isLast (fragNum : ℕ) : Bool :=
  fragNum &&& fragLastBit != 0

/-- The result of `parse_video_fragment`. -/
structure VideoFragment where
  fragNum : ℕ
  first : Bool
  last : Bool
  data : Bytes
deriving DecidableEq, Repr

def parseVideoFragment (body : Bytes) : Except Exn VideoFragment :=
  if body.length < 2 then
    .error (protocolError
      ("ivtp: VIDEO_FRAGMENT body (" ++ toString body.length ++
        " bytes) is shorter than the 2-byte fragment-number prefix")
      "ivtp.parse_video_fragment")
  else
    let fragNum := ofLE (slice body 0 2)
    .ok { fragNum, first := isFirst fragNum, last := isLast fragNum, data := body.drop 2 }

structure FrameReassembler where
  buf : Bytes := []
deriving DecidableEq, Repr

def FrameReassembler.feed (fragNum : ℕ) (data : Bytes) (reassembler : FrameReassembler) :
    Except Exn (Option Bytes) × FrameReassembler :=
  let buf := if isFirst fragNum then [] else reassembler.buf
  if maxFrameBytes < buf.length + data.length then
    (.error (protocolError
      ("ivtp: reassembled video frame would exceed " ++ toString maxFrameBytes ++ " bytes")
      "ivtp.capture_one_frame"), { buf })
  else
    let buf := buf ++ data
    if isLast fragNum then (.ok (some buf), { buf := [] }) else (.ok none, { buf })

/-- A string of the session request that is not ASCII is reached: the strings are encoded
in order, and a string that is too long ends the encoding. -/
def Unencodable (token clientIp username : String) : Prop :=
  PyText.isAscii token = false ∨ token.length ≤ tokenFieldLen - 1 ∧
    (PyText.isAscii clientIp = false ∨ clientIp.length ≤ ipFieldLen ∧
      PyText.isAscii username = false)

/-- The strings of the session request have room in their fields. -/
def FitsFields (token clientIp username : String) : Prop :=
  token.length ≤ tokenFieldLen - 1 ∧ clientIp.length ≤ ipFieldLen ∧
    username.length ≤ usernameFieldLen

theorem fixedAscii_spec (value : String) (width : ℕ) (field operation : String) :
    (PyText.isAscii value = false ∧
      fixedAscii value width field operation = .error .unicodeEncodeError) ∨
    (PyText.isAscii value = true ∧ ¬ value.length ≤ width ∧
      ∃ error, fixedAscii value width field operation = .error (.ikvm error)) ∨
    (PyText.isAscii value = true ∧ value.length ≤ width ∧
      ∃ bytes, bytes.length = width ∧ fixedAscii value width field operation = .ok bytes) := by
  cases ascii : PyText.isAscii value with
  | false => exact .inl ⟨rfl, by simp [fixedAscii, PyText.encodeAscii, ascii]⟩
  | true =>
      right
      obtain ⟨encoded, same⟩ := Option.isSome_iff_exists.mp
        ((PyText.encodeAscii_isSome value).trans ascii)
      have length := PyText.length_encodeAscii same
      by_cases fits : value.length ≤ width
      · right
        refine ⟨rfl, fits, encoded ++ List.replicate (width - encoded.length) 0, ?_, ?_⟩
        · rw [List.length_append, List.length_replicate]
          omega
        · simp only [fixedAscii, same]
          rw [if_neg (by omega)]
      · left
        refine ⟨rfl, fits, ?_⟩
        simp only [fixedAscii, same]
        rw [if_pos (by omega)]
        exact ⟨_, rfl⟩

/-- What `build_validate_video_session` does; its assertion never fails. -/
theorem buildValidateVideoSession_spec (token clientIp username : String) (tokenType : ℤ) :
    (Unencodable token clientIp username ∧
      buildValidateVideoSession token clientIp username tokenType =
        .error .unicodeEncodeError) ∨
    (¬ Unencodable token clientIp username ∧ ¬ FitsFields token clientIp username ∧
      ∃ error, buildValidateVideoSession token clientIp username tokenType =
        .error (.ikvm error)) ∨
    (¬ Unencodable token clientIp username ∧ FitsFields token clientIp username ∧
      ∃ data, buildValidateVideoSession token clientIp username tokenType = .ok data) := by
  unfold buildValidateVideoSession Unencodable FitsFields
  dsimp only
  rcases fixedAscii_spec token (tokenFieldLen - 1) "token"
      "ivtp.build_validate_video_session" with
    ⟨ascii, encoded⟩ | ⟨ascii, tooLong, error, encoded⟩ | ⟨ascii, fits, tokenBytes, long, encoded⟩
  · refine .inl ⟨.inl ascii, ?_⟩
    rw [encoded]
    rfl
  · refine .inr (.inl ⟨by simp [ascii, tooLong], by simp [tooLong], error, ?_⟩)
    rw [encoded]
    rfl
  rcases fixedAscii_spec clientIp ipFieldLen "client_ip"
      "ivtp.build_validate_video_session" with
    ⟨ascii', encoded'⟩ | ⟨ascii', tooLong', error', encoded'⟩ |
      ⟨ascii', fits', ipField, long', encoded'⟩
  · refine .inl ⟨.inr ⟨fits, .inl ascii'⟩, ?_⟩
    simp only [encoded, encoded', bind, Except.bind]
  · refine .inr (.inl ⟨by simp [ascii, ascii', tooLong'], by simp [tooLong'], error', ?_⟩)
    simp only [encoded, encoded', bind, Except.bind]
  rcases fixedAscii_spec username usernameFieldLen "username"
      "ivtp.build_validate_video_session" with
    ⟨ascii'', encoded''⟩ | ⟨ascii'', tooLong'', error'', encoded''⟩ |
      ⟨ascii'', fits'', usernameField, long'', encoded''⟩
  · refine .inl ⟨.inr ⟨fits, .inr ⟨fits', ascii''⟩⟩, ?_⟩
    simp only [encoded, encoded', encoded'', bind, Except.bind]
  · refine .inr (.inl ⟨by simp [ascii, ascii', ascii''], by simp [tooLong''], error'', ?_⟩)
    simp only [encoded, encoded', encoded'', bind, Except.bind]
  · refine .inr (.inr ⟨by simp [ascii, ascii', ascii''], ⟨fits, fits', fits''⟩, ?_⟩)
    have whole : ([lowByte tokenType] ++ tokenBytes ++ ipField ++ usernameField).length =
        videoPacketSize := by
      simp only [List.length_append, List.length_singleton, long, long', long'']
      rfl
    simp only [encoded, encoded', encoded'', bind, Except.bind]
    rw [if_neg (not_not.mpr whole)]
    exact ⟨_, rfl⟩

end Asmb8Ikvm.Ivtp

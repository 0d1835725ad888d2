import Asmb8Ikvm.Errors
import Asmb8Ikvm.Lib.Text

/-!
# IUSB frames

The packet format of `plugins/module_utils/iusb.py`: the 32-byte header with its
checksum, packets, and the two functions that turn a raw frame into a packet and
a response into a raw frame.

Header fields are Python integers. `Header.marshal` masks them, so a header that
has been marshalled and parsed again has every field reduced to its width.
-/

namespace Asmb8Ikvm.Iusb

open Bytes

def headerLen : ℕ := 32

/-- `b"IUSB    "`. -/
def signature : Bytes := [73, 85, 83, 66, 32, 32, 32, 32]

def iusbMajor : ℤ := 1

def iusbMinor : ℤ := 0

def deviceCdrom : ℤ := 5

def opAuth : UInt8 := 0xF2

def opRedirectAck : UInt8 := 0xF1

def opKillRedir : UInt8 := 0xF6

def opcodeOffset : ℕ := 9

def maxPacketPayload : ℕ := 0x20000 + 4096

/-- `iusb.Header` with its default values. -/
structure Header where
  major : ℤ := iusbMajor
  minor : ℤ := iusbMinor
  dataPacketLen : ℤ := 0
  serverCaps : ℤ := 0
  deviceType : ℤ := 0
  protocol : ℤ := 1
  direction : ℤ := 0
  deviceNumber : ℤ := 0
  interfaceNumber : ℤ := 0
  clientData : ℤ := 0
  instanceNumber : ℤ := 0
  sequenceNumber : ℤ := 0
deriving DecidableEq, Repr

/-- `value & 0xFFFFFFFF` as four bytes, `struct.pack("<I", ...)`. -/
def packU32 (value : ℤ) : Bytes :=
  le 4 (value % 2 ^ 32).toNat

/-- `sum(b)`. -/
def byteSum (bytes : Bytes) : ℕ :=
  (bytes.map UInt8.toNat).sum

namespace Header

/-- The buffer of `marshal` before its checksum is stored at offset 11. -/
def unsummed (h : Header) : Bytes :=
  let b := overwrite (List.replicate headerLen 0) 0 signature
  let b := b.set 8 (lowByte h.major)
  let b := b.set 9 (lowByte h.minor)
  let b := b.set 10 (UInt8.ofNat headerLen)
  let b := overwrite b 12 (packU32 h.dataPacketLen)
  let b := b.set 16 (lowByte h.serverCaps)
  let b := b.set 17 (lowByte h.deviceType)
  let b := b.set 18 (lowByte h.protocol)
  let b := b.set 19 (lowByte h.direction)
  let b := b.set 20 (lowByte h.deviceNumber)
  let b := b.set 21 (lowByte h.interfaceNumber)
  let b := b.set 22 (lowByte h.clientData)
  let b := b.set 23 (lowByte h.instanceNumber)
  overwrite b 24 (packU32 h.sequenceNumber)

/-- `Header.marshal`: the 32 bytes on the wire. -/
def marshal (h : Header) : Bytes :=
  h.unsummed.set 11 (lowByte (-(byteSum h.unsummed)))

/-- `b[index]` of a buffer whose length has been checked. -/
def field (b : Bytes) (index : ℕ) : ℤ :=
  (b.getD index 0).toNat

/-- `struct.unpack_from("<I", b, offset)`. -/
def field32 (b : Bytes) (offset : ℕ) : ℤ :=
  ofLE (slice b offset 4)

/-- The fields of a header in its wire form. Neither the checksum nor the reserved
bytes are looked at. -/
def ofBytes (b : Bytes) : Header where
  major := field b 8
  minor := field b 9
  dataPacketLen := field32 b 12
  serverCaps := field b 16
  deviceType := field b 17
  protocol := field b 18
  direction := field b 19
  deviceNumber := field b 20
  interfaceNumber := field b 21
  clientData := field b 22
  instanceNumber := field b 23
  sequenceNumber := field32 b 24

def parse (b : Bytes) : Except Exn Header :=
  if b.length < headerLen then
    .error (protocolError ("iusb: short header: " ++ toString b.length ++ " bytes")
      "iusb.parse_header")
  else if b.take 8 ≠ signature then
    .error (protocolError ("iusb: bad signature " ++ PyText.reprBytes (b.take 8))
      "iusb.parse_header")
  else .ok (ofBytes b)

theorem eq_ofBytes_of_parse {b : Bytes} {h : Header} (parsed : parse b = .ok h) :
    h = ofBytes b := by
  unfold parse at parsed
  split_ifs at parsed
  cases parsed
  rfl

theorem parse_error {b : Bytes} {exn : Exn} (failed : parse b = .error exn) :
    ∃ error, exn = .ikvm error := by
  unfold parse at failed
  split_ifs at failed
  · cases failed
    exact ⟨_, rfl⟩
  · cases failed
    exact ⟨_, rfl⟩

/-- The header with every field reduced to its width on the wire. -/
def reduced (h : Header) : Header where
  major := h.major % 2 ^ 8
  minor := h.minor % 2 ^ 8
  dataPacketLen := h.dataPacketLen % 2 ^ 32
  serverCaps := h.serverCaps % 2 ^ 8
  deviceType := h.deviceType % 2 ^ 8
  protocol := h.protocol % 2 ^ 8
  direction := h.direction % 2 ^ 8
  deviceNumber := h.deviceNumber % 2 ^ 8
  interfaceNumber := h.interfaceNumber % 2 ^ 8
  clientData := h.clientData % 2 ^ 8
  instanceNumber := h.instanceNumber % 2 ^ 8
  sequenceNumber := h.sequenceNumber % 2 ^ 32

end Header

structure Packet where
  header : Header
  payload : Bytes := []
deriving DecidableEq, Repr

namespace Packet

def opcode (packet : Packet) : UInt8 :=
  if packet.payload.length ≤ opcodeOffset then 0 else packet.payload.getD opcodeOffset 0

def cdb (packet : Packet) : Bytes :=
  if packet.payload.length ≤ opcodeOffset then [] else packet.payload.drop opcodeOffset

def isKill (packet : Packet) : Bool :=
  packet.opcode == opKillRedir

end Packet

def parseRequestFrame (frame : Bytes) : Except Exn Packet :=
  if frame.length < headerLen then
    .error (protocolError
      ("iusb: frame shorter than the " ++ toString headerLen ++ "-byte header")
      "iusb.parse_request_frame")
  else
    match Header.parse (frame.take headerLen) with
    | .error exn => .error exn
    | .ok header =>
        let payload := frame.drop headerLen
        if (payload.length : ℤ) ≠ header.dataPacketLen then
          .error (protocolError
            ("iusb: frame payload is " ++ toString payload.length ++ " bytes, header says " ++
              toString header.dataPacketLen)
            "iusb.parse_request_frame")
        else .ok { header, payload }

def buildResponseFrame (reqHeader : Header) (payload : Bytes) (deviceType : ℤ) : Bytes :=
  let respHeader : Header := {
    dataPacketLen := payload.length
    deviceType
    protocol := 1
    direction := 128
    instanceNumber := reqHeader.instanceNumber
    sequenceNumber := reqHeader.sequenceNumber }
  respHeader.marshal ++ payload

namespace Header

/-- The wire form of a header, field by field, with `checksum` at offset 11. -/
def layout (h : Header) (checksum : UInt8) : Bytes :=
  signature ++ [lowByte h.major, lowByte h.minor, 32, checksum] ++
    packU32 h.dataPacketLen ++
    [lowByte h.serverCaps, lowByte h.deviceType, lowByte h.protocol, lowByte h.direction,
      lowByte h.deviceNumber, lowByte h.interfaceNumber, lowByte h.clientData,
      lowByte h.instanceNumber] ++
    packU32 h.sequenceNumber ++ [0, 0, 0, 0]

theorem packU32_bytes (value : ℤ) : ∃ b₀ b₁ b₂ b₃, packU32 value = [b₀, b₁, b₂, b₃] :=
  ⟨_, _, _, _, rfl⟩

theorem unsummed_eq_layout (h : Header) : h.unsummed = h.layout 0 := by
  rcases packU32_bytes h.dataPacketLen with ⟨l₀, l₁, l₂, l₃, dataPacketLen⟩
  rcases packU32_bytes h.sequenceNumber with ⟨s₀, s₁, s₂, s₃, sequenceNumber⟩
  simp [unsummed, layout, dataPacketLen, sequenceNumber, overwrite, signature, headerLen,
    List.replicate]

theorem marshal_eq_layout (h : Header) :
    h.marshal = h.layout (lowByte (-(byteSum h.unsummed))) := by
  rw [marshal]
  generalize lowByte (-(byteSum h.unsummed)) = checksum
  rw [unsummed_eq_layout]
  rfl

theorem byteSum_layout (h : Header) (checksum : UInt8) :
    byteSum (h.layout checksum) = byteSum (h.layout 0) + checksum.toNat := by
  simp only [layout, byteSum, List.map_append, List.sum_append, List.map_cons, List.map_nil,
    List.sum_cons, List.sum_nil]
  have zero : (0 : UInt8).toNat = 0 := rfl
  omega

@[simp]
theorem length_layout (h : Header) (checksum : UInt8) : (h.layout checksum).length = headerLen := by
  simp [layout, signature, packU32, headerLen]

@[simp]
theorem length_marshal (h : Header) : h.marshal.length = headerLen := by
  rw [marshal_eq_layout, length_layout]

theorem byteSum_marshal (h : Header) : byteSum h.marshal % 256 = 0 := by
  have checksum := toNat_lowByte (-(byteSum h.unsummed))
  rw [marshal_eq_layout, byteSum_layout, ← unsummed_eq_layout]
  omega

@[simp]
theorem take_signature_marshal (h : Header) : h.marshal.take 8 = signature := by
  rw [marshal_eq_layout]
  rfl

theorem ofLE_packU32 (value : ℤ) : (ofLE (packU32 value) : ℤ) = value % 2 ^ 32 := by
  have nonneg : 0 ≤ value % 2 ^ 32 := Int.emod_nonneg value (by decide)
  have below : value % 2 ^ 32 < 2 ^ 32 := Int.emod_lt_of_pos value (by decide)
  rw [packU32, ofLE_le]
  omega

theorem field_of_getD {b : Bytes} {index : ℕ} (value : ℤ)
    (stored : b.getD index 0 = lowByte value) : field b index = value % 2 ^ 8 := by
  rw [field, stored]
  exact toNat_lowByte value

theorem field32_of_slice {b : Bytes} {offset : ℕ} (value : ℤ)
    (stored : slice b offset 4 = packU32 value) : field32 b offset = value % 2 ^ 32 := by
  rw [field32, stored, ofLE_packU32]

/-- Parsing a marshalled header gives its fields back, reduced to their widths. -/
theorem parse_marshal (h : Header) : parse h.marshal = .ok h.reduced := by
  rw [parse, if_neg (by simp), if_neg (by simp), marshal_eq_layout, ofBytes]
  generalize lowByte (-(byteSum h.unsummed)) = checksum
  have dataPacketLen := field32_of_slice h.dataPacketLen
    (show slice (h.layout checksum) 12 4 = _ from rfl)
  have sequenceNumber := field32_of_slice h.sequenceNumber
    (show slice (h.layout checksum) 24 4 = _ from rfl)
  have major := field_of_getD h.major (show (h.layout checksum).getD 8 0 = _ from rfl)
  have minor := field_of_getD h.minor (show (h.layout checksum).getD 9 0 = _ from rfl)
  have serverCaps := field_of_getD h.serverCaps
    (show (h.layout checksum).getD 16 0 = _ from rfl)
  have deviceType := field_of_getD h.deviceType
    (show (h.layout checksum).getD 17 0 = _ from rfl)
  have protocol := field_of_getD h.protocol (show (h.layout checksum).getD 18 0 = _ from rfl)
  have direction := field_of_getD h.direction (show (h.layout checksum).getD 19 0 = _ from rfl)
  have deviceNumber := field_of_getD h.deviceNumber
    (show (h.layout checksum).getD 20 0 = _ from rfl)
  have interfaceNumber := field_of_getD h.interfaceNumber
    (show (h.layout checksum).getD 21 0 = _ from rfl)
  have clientData := field_of_getD h.clientData
    (show (h.layout checksum).getD 22 0 = _ from rfl)
  have instanceNumber := field_of_getD h.instanceNumber
    (show (h.layout checksum).getD 23 0 = _ from rfl)
  simp only [reduced, major, minor, dataPacketLen, serverCaps, deviceType, protocol, direction,
    deviceNumber, interfaceNumber, clientData, instanceNumber, sequenceNumber]

/-- A header on the wire as this module writes it: signature, header length, zero
reserved bytes and a checksum that makes the 32 bytes sum to zero. -/
structure Canonical (b : Bytes) : Prop where
  length : b.length = headerLen
  startsWith : b.take 8 = signature
  headerLength : b.getD 10 0 = 32
  reserved : slice b 28 4 = [0, 0, 0, 0]
  checksum : byteSum b % 256 = 0

theorem packU32_field32 {b : Bytes} {offset : ℕ} (within : offset + 4 ≤ b.length) :
    packU32 (field32 b offset) = slice b offset 4 := by
  have width : (slice b offset 4).length = 4 := by
    rw [length_slice]
    omega
  have below := ofLE_lt (slice b offset 4)
  have reencoded := le_ofLE (slice b offset 4)
  rw [width] at below reencoded
  have value : ((ofLE (slice b offset 4) : ℤ) % 2 ^ 32).toNat = ofLE (slice b offset 4) := by
    omega
  rw [packU32, field32, value, reencoded]

theorem Canonical.eq_layout {b : Bytes} {h : Header} (canonical : Canonical b)
    (parsed : parse b = .ok h) : b = h.layout (b.getD 11 0) := by
  have length := canonical.length
  rw [parse, if_neg (by simp [length]), if_neg (by simp [canonical.startsWith])] at parsed
  cases parsed
  simp only [layout, ofBytes, field, lowByte_toNat]
  rw [packU32_field32 (by rw [length]; decide), packU32_field32 (by rw [length]; decide),
    ← canonical.startsWith, ← canonical.headerLength, ← canonical.reserved]
  obtain ⟨bytes, rfl⟩ : ∃ bytes : Fin 32 → UInt8, b = List.ofFn bytes :=
    ⟨fun i => b.get (i.cast length.symm), List.ext_getElem
      (by rw [List.length_ofFn]; exact length)
      (by intro i _ _; rw [List.getElem_ofFn]; rfl)⟩
  simp [List.ofFn_succ, slice]

theorem Canonical.marshal_parse {b : Bytes} (canonical : Canonical b) :
    ∃ h, parse b = .ok h ∧ h.marshal = b := by
  obtain ⟨h, parsed⟩ : ∃ h, parse b = .ok h := by
    rw [parse, if_neg (by simp [canonical.length]), if_neg (by simp [canonical.startsWith])]
    exact ⟨_, rfl⟩
  have wire := canonical.eq_layout parsed
  have total := canonical.checksum
  rw [wire, byteSum_layout] at total
  refine ⟨h, parsed, ?_⟩
  have checksum : lowByte (-(byteSum h.unsummed)) = b.getD 11 0 := by
    have low := toNat_lowByte (-(byteSum h.unsummed))
    have below := (b.getD 11 0).toNat_lt
    rw [unsummed_eq_layout] at low ⊢
    apply UInt8.toNat_inj.mp
    omega
  rw [marshal_eq_layout, checksum, ← wire]

end Header

theorem parseRequestFrame_marshal (h : Header) (trailing : Bytes) :
    parseRequestFrame (h.marshal ++ trailing) =
      if (trailing.length : ℤ) ≠ h.dataPacketLen % 2 ^ 32 then
        .error (protocolError
          ("iusb: frame payload is " ++ toString trailing.length ++ " bytes, header says " ++
            toString (h.dataPacketLen % 2 ^ 32))
          "iusb.parse_request_frame")
      else .ok { header := h.reduced, payload := trailing } := by
  have front : (h.marshal ++ trailing).take headerLen = h.marshal := by
    rw [← h.length_marshal, List.take_left]
  have back : (h.marshal ++ trailing).drop headerLen = trailing := by
    rw [← h.length_marshal, List.drop_left]
  rw [parseRequestFrame, if_neg (by simp), front, back, Header.parse_marshal]
  rfl

/-- The IUSB frame codec: marshalling yields 32 bytes with a zero sum, parsing
inverts it up to the widths of the fields, canonical headers are recovered byte
for byte, and a frame is accepted exactly when the announced number of payload
bytes follows its header. -/
theorem frame_codec :
    (∀ h : Header, h.marshal.length = 32 ∧ byteSum h.marshal % 256 = 0 ∧
      Header.parse h.marshal = .ok h.reduced) ∧
    (∀ b, Header.Canonical b → ∃ h, Header.parse b = .ok h ∧ h.marshal = b) ∧
    (∀ (h : Header) (payload : Bytes), h.dataPacketLen = payload.length →
      payload.length < 2 ^ 32 →
        parseRequestFrame (h.marshal ++ payload) = .ok { header := h.reduced, payload } ∧
        ∀ trailing : Bytes, trailing.length ≠ payload.length →
          ∃ error, parseRequestFrame (h.marshal ++ trailing) = .error (.ikvm error) ∧
            error.errorClass = .protocol) := by
  refine ⟨fun h => ⟨h.length_marshal, h.byteSum_marshal, h.parse_marshal⟩,
    fun b canonical => canonical.marshal_parse, ?_⟩
  intro h payload announced bounded
  have width : h.dataPacketLen % 2 ^ 32 = payload.length := by
    rw [announced]
    omega
  refine ⟨?_, ?_⟩
  · rw [parseRequestFrame_marshal, width, if_neg (by simp)]
  · intro trailing other
    rw [parseRequestFrame_marshal, width, if_pos (by exact_mod_cast other)]
    exact ⟨_, rfl, rfl⟩

/-- A three-byte payload behind a default header is accepted, four bytes are not, and
the header is recovered from its wire form. -/
theorem frame_codec_three_bytes :
    parseRequestFrame (({ dataPacketLen := 3 } : Header).marshal ++ [1, 2, 3]) =
        .ok { header := { dataPacketLen := 3 }, payload := [1, 2, 3] } ∧
      (∃ error, parseRequestFrame (({ dataPacketLen := 3 } : Header).marshal ++ [1, 2, 3, 4]) =
        .error (.ikvm error) ∧ error.errorClass = .protocol) ∧
      ∃ h, Header.parse ({ dataPacketLen := 3 } : Header).marshal = .ok h ∧
        h.marshal = ({ dataPacketLen := 3 } : Header).marshal := by
  rcases frame_codec with ⟨-, recovered, framed⟩
  obtain ⟨accepted, rejected⟩ :=
    framed { dataPacketLen := 3 } [1, 2, 3] (by decide) (by decide)
  exact ⟨accepted, rejected [1, 2, 3, 4] (by decide),
    recovered _ ⟨by decide, by decide, by decide, by decide, by decide⟩⟩

end Asmb8Ikvm.Iusb

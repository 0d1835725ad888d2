import Asmb8Ikvm.Iusb.Auth

/-!
# The token of the authentication packet

What the authentication packet says to a receiver that reads it as a request
frame. The token comes back when the packet is built for a web session; the
payload of an SSI token is longer, but the byte that tells the two apart is the
same in both. A token with a NUL is sent and read back cut short, and one that
is not ASCII leaves `build_auth` as a `UnicodeEncodeError`.
-/

namespace Asmb8Ikvm.Iusb

open Bytes

/-- The length of the payload. -/
def authLen (ssi : Bool) : ℕ :=
  if ssi then ssiAuthPayloadLen else authPayloadLen

/-- The token is made of ASCII characters other than NUL and fits behind its offset. -/
def Carriable (token : String) (ssi : Bool) : Prop :=
  PyText.isAscii token = true ∧ '\x00' ∉ token.toList ∧
    authTokenOffset + token.length ≤ authLen ssi

/-- `build_auth` raises a `ProtocolError`. -/
def RaisesProtocol (deviceType instanceNumber : ℤ) (token : String) (ssi : Bool) : Prop :=
  ∃ error, buildAuth deviceType instanceNumber token ssi = .error (.ikvm error) ∧
    error.errorClass = .protocol

/-- The text from the token's offset up to the first NUL or the end. -/
def tokenRead (payload : Bytes) : Bytes :=
  (payload.drop authTokenOffset).takeWhile fun byte => byte ≠ 0

/-- The receiver reads the packet as an authentication with this token. -/
structure Announces (deviceType instanceNumber : ℤ) (token : String) (ssi : Bool)
    (packet : Packet) : Prop where
  opcode : packet.opcode = 0xF2
  length : packet.payload.length = if ssi then 240 else 128
  tokenType : packet.payload[30]? = some (if ssi then 1 else 0)
  device : packet.header.deviceType = deviceType % 256
  number : packet.header.instanceNumber = instanceNumber % 256
  token : PyText.encodeAscii token = some (tokenRead packet.payload)

/-- `build_auth` refuses exactly the tokens that cannot be carried and returns a frame that
announces the others. -/
def CarriesToken (deviceType instanceNumber : ℤ) (token : String) (ssi : Bool) : Prop :=
  (RaisesProtocol deviceType instanceNumber token ssi ↔ ¬ Carriable token ssi) ∧
    (RaisesProtocol deviceType instanceNumber token ssi ∨
      ∃ frame packet, buildAuth deviceType instanceNumber token ssi = .ok frame ∧
        parseRequestFrame frame = .ok packet ∧
        Announces deviceType instanceNumber token ssi packet)

/-- The header of the packet. -/
def authHeader (deviceType instanceNumber : ℤ) (ssi : Bool) : Header where
  major := iusbMajor
  minor := iusbMinor
  dataPacketLen := authLen ssi
  deviceType
  protocol := 1
  direction := 128
  instanceNumber

/-- The payload before the token is stored in it. -/
def blankPayload (ssi : Bool) : Bytes :=
  ((List.replicate (authLen ssi) 0).set opcodeOffset opAuth).set connStatusOffset 0

section Outcomes

variable {token : String} {ssi : Bool} {tokenBytes : Bytes}

theorem buildAuth_of_not_ascii (deviceType instanceNumber : ℤ) (ssi : Bool)
    (unencodable : PyText.isAscii token = false) :
    buildAuth deviceType instanceNumber token ssi = .error .unicodeEncodeError := by
  simp [buildAuth, PyText.encodeAscii, unencodable]

theorem raisesProtocol_of_tooLong (deviceType instanceNumber : ℤ)
    (encoded : PyText.encodeAscii token = some tokenBytes)
    (tooLong : authLen ssi < authTokenOffset + token.length) :
    RaisesProtocol deviceType instanceNumber token ssi := by
  have stop := PyText.length_encodeAscii encoded
  simp only [authLen] at tooLong
  simp only [RaisesProtocol, buildAuth, encoded, stop, if_pos tooLong]
  exact ⟨_, rfl, rfl⟩

theorem buildAuth_of_fits (deviceType instanceNumber : ℤ)
    (encoded : PyText.encodeAscii token = some tokenBytes)
    (fits : authTokenOffset + token.length ≤ authLen ssi) :
    buildAuth deviceType instanceNumber token ssi =
      .ok ((authHeader deviceType instanceNumber ssi).marshal ++
        overwrite (blankPayload ssi) authTokenOffset tokenBytes) := by
  have stop := PyText.length_encodeAscii encoded
  have within := Nat.not_lt.mpr fits
  simp only [authLen] at within
  simp only [buildAuth, encoded, stop, if_neg within]
  rfl

end Outcomes

@[simp]
theorem length_blankPayload (ssi : Bool) : (blankPayload ssi).length = authLen ssi := by
  simp [blankPayload]

theorem authLen_lt (ssi : Bool) : authLen ssi < 2 ^ 32 := by
  cases ssi <;> decide

section Payload

variable {ssi : Bool} {tokenBytes : Bytes}
  (fits : authTokenOffset + tokenBytes.length ≤ authLen ssi)

include fits

theorem parseRequestFrame_auth (deviceType instanceNumber : ℤ) :
    parseRequestFrame ((authHeader deviceType instanceNumber ssi).marshal ++
        overwrite (blankPayload ssi) authTokenOffset tokenBytes) =
      .ok {
        header := (authHeader deviceType instanceNumber ssi).reduced
        payload := overwrite (blankPayload ssi) authTokenOffset tokenBytes } := by
  have length : (overwrite (blankPayload ssi) authTokenOffset tokenBytes).length = authLen ssi := by
    rw [length_overwrite (by rwa [length_blankPayload]), length_blankPayload]
  have small := authLen_lt ssi
  have announced : (authHeader deviceType instanceNumber ssi).dataPacketLen = authLen ssi := rfl
  rw [parseRequestFrame_marshal, if_neg]
  rw [length, announced]
  omega

/-- The bytes before the token are those of the blank payload. -/
theorem getElem?_payload_of_lt {i : ℕ} (before : i < authTokenOffset) :
    (overwrite (blankPayload ssi) authTokenOffset tokenBytes)[i]? = (blankPayload ssi)[i]? := by
  rw [getElem?_overwrite (by rwa [length_blankPayload]), if_pos before]

/-- Behind the token there are zeros up to the end of the payload. -/
theorem drop_payload :
    (overwrite (blankPayload ssi) authTokenOffset tokenBytes).drop authTokenOffset =
      tokenBytes ++
        List.replicate (authLen ssi - (authTokenOffset + tokenBytes.length)) 0 := by
  have blank (i : ℕ) (beyond : authTokenOffset ≤ i) :
      (blankPayload ssi)[i]? = if i < authLen ssi then some 0 else none := by
    have offset : authTokenOffset = 31 := rfl
    rw [blankPayload, List.getElem?_set_ne (by simp only [connStatusOffset]; omega),
      List.getElem?_set_ne (by simp only [opcodeOffset]; omega), List.getElem?_replicate]
  apply List.ext_getElem?
  intro i
  rw [List.getElem?_drop, getElem?_overwrite (by rwa [length_blankPayload]), if_neg (by omega),
    List.getElem?_append, List.getElem?_replicate]
  by_cases inside : i < tokenBytes.length
  · rw [if_pos (by omega), if_pos inside]
    congr 1
    omega
  · rw [if_neg (by omega), if_neg inside, blank _ (by omega)]
    by_cases within : authTokenOffset + i < authLen ssi
    · rw [if_pos within, if_pos (by omega)]
    · rw [if_neg within, if_neg (by omega)]

/-- The token is read back up to its first NUL. -/
theorem tokenRead_payload :
    tokenRead (overwrite (blankPayload ssi) authTokenOffset tokenBytes) =
      tokenBytes.takeWhile fun byte => byte ≠ 0 := by
  rw [tokenRead, drop_payload fits, List.takeWhile_append]
  split_ifs with whole
  · rw [List.takeWhile_replicate, (List.takeWhile_sublist _).eq_of_length whole]
    simp
  · rfl

end Payload

/-- What a token that fits is built to: the frame is accepted, its token type is the one of a
web session, and the token is read back when it has no NUL. -/
theorem announces_iff {token : String} {ssi : Bool} {tokenBytes : Bytes}
    (deviceType instanceNumber : ℤ) (encoded : PyText.encodeAscii token = some tokenBytes)
    (fits : authTokenOffset + tokenBytes.length ≤ authLen ssi) :
    Announces deviceType instanceNumber token ssi {
        header := (authHeader deviceType instanceNumber ssi).reduced
        payload := overwrite (blankPayload ssi) authTokenOffset tokenBytes } ↔
      ssi = false ∧ '\x00' ∉ token.toList := by
  have length : (overwrite (blankPayload ssi) authTokenOffset tokenBytes).length = authLen ssi := by
    rw [length_overwrite (by rwa [length_blankPayload]), length_blankPayload]
  have tokenType : (overwrite (blankPayload ssi) authTokenOffset tokenBytes)[30]? = some 0 := by
    rw [getElem?_payload_of_lt fits (by decide)]
    cases ssi <;> rfl
  have opcode : (overwrite (blankPayload ssi) authTokenOffset tokenBytes)[opcodeOffset]? =
      some 0xF2 := by
    rw [getElem?_payload_of_lt fits (by decide)]
    cases ssi <;> rfl
  constructor
  · intro announces
    have marked := announces.tokenType
    have read := announces.token
    rw [tokenType] at marked
    rw [encoded, tokenRead_payload fits, Option.some.injEq] at read
    refine ⟨?_, ?_⟩
    · cases ssi with
      | false => rfl
      | true => cases marked
    · rw [← PyText.zero_mem_encodeAscii encoded, read]
      intro zero
      have nonzero := List.mem_takeWhile_imp zero
      simp at nonzero
  · rintro ⟨rfl, clean⟩
    have whole : tokenBytes.takeWhile (fun byte => byte ≠ 0) = tokenBytes := by
      rw [List.takeWhile_eq_self_iff]
      intro byte mem
      rw [decide_eq_true_eq]
      rintro rfl
      exact clean ((PyText.zero_mem_encodeAscii encoded).mp mem)
    refine ⟨?_, length, tokenType, rfl, rfl, ?_⟩
    · have long : ¬ (overwrite (blankPayload false) authTokenOffset tokenBytes).length ≤
          opcodeOffset := by
        rw [length]
        decide
      rw [Packet.opcode, if_neg long, List.getD_eq_getElem?_getD, opcode]
      rfl
    · rw [encoded, tokenRead_payload fits, whole]

/-- The token is carried exactly when it is ASCII and, if it fits, has no NUL and is sent for a
web session. -/
theorem carriesToken_iff (deviceType instanceNumber : ℤ) (token : String) (ssi : Bool) :
    CarriesToken deviceType instanceNumber token ssi ↔
      PyText.isAscii token = true ∧
        (authTokenOffset + token.length ≤ authLen ssi →
          ssi = false ∧ '\x00' ∉ token.toList) := by
  unfold CarriesToken
  cases ascii : PyText.isAscii token with
  | false =>
      have failed := buildAuth_of_not_ascii deviceType instanceNumber ssi ascii
      simp [RaisesProtocol, failed]
  | true =>
      obtain ⟨tokenBytes, encoded⟩ := Option.isSome_iff_exists.mp
        ((PyText.encodeAscii_isSome token).trans ascii)
      have stop := PyText.length_encodeAscii encoded
      by_cases fits : authTokenOffset + token.length ≤ authLen ssi
      · have built := buildAuth_of_fits deviceType instanceNumber encoded fits
        rw [← stop] at fits
        have accepted := parseRequestFrame_auth fits deviceType instanceNumber
        have announces := announces_iff deviceType instanceNumber encoded fits
        have silent : ¬ RaisesProtocol deviceType instanceNumber token ssi := by
          simp [RaisesProtocol, built]
        rw [stop] at fits
        simp only [silent, false_iff, not_not, false_or, Carriable, ascii, fits, true_and,
          and_true, true_implies, built, Except.ok.injEq]
        constructor
        · rintro ⟨-, frame, packet, rfl, parsed, carried⟩
          rw [accepted, Except.ok.injEq] at parsed
          subst parsed
          exact announces.mp carried
        · intro plain
          exact ⟨plain.2, _, _, rfl, accepted, announces.mpr plain⟩
      · have raised := raisesProtocol_of_tooLong deviceType instanceNumber encoded
          (Nat.lt_of_not_le fits)
        simp [raised, Carriable, fits]

/-- An SSI token is sent with the token type of a web session. -/
theorem not_carriesToken_ssi : ¬ CarriesToken 5 0 "3f9a" true := by
  have encoded : PyText.encodeAscii "3f9a" = some [0x33, 0x66, 0x39, 0x61] := by decide
  have fits : authTokenOffset + [0x33, 0x66, 0x39, 0x61].length ≤ authLen true := by decide
  have built := buildAuth_of_fits 5 0 encoded (show authTokenOffset + "3f9a".length ≤ _ from fits)
  rintro ⟨-, ⟨error, raised, -⟩ | ⟨frame, packet, returned, parsed, announces⟩⟩
  · rw [built] at raised
    cases raised
  · rw [built, Except.ok.injEq] at returned
    subst returned
    rw [parseRequestFrame_auth fits 5 0, Except.ok.injEq] at parsed
    subst parsed
    cases ((announces_iff 5 0 encoded fits).mp announces).1

end Asmb8Ikvm.Iusb

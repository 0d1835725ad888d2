import Asmb8Ikvm.Ivtp.Reassembly

/-!
# The session request as a codec

`build_validate_video_session` lays three strings out in zero-padded fields that
follow each other without a separator. A receiver cuts each field at its first
NUL, or at the end of the field when the string fills it. A string with a NUL is
cut short; every other one is read back, so the request determines its strings.
-/

namespace Asmb8Ikvm.Ivtp

open Bytes ByteStream

/-- The string in a field of the body: up to the first NUL or the end of the field. -/
def cutField (body : Bytes) (offset width : ℕ) : List Char :=
  PyText.decodeAsciiReplace ((slice body offset width).takeWhile fun byte => byte ≠ 0)

/-- The receiver reads the strings and the low byte of the token type out of the body. -/
structure Carries (token clientIp username : String) (tokenType : ℤ) (body : Bytes) : Prop where
  tokenType : body.head?.map (fun byte => (byte.toNat : ℤ)) = some (tokenType % 256)
  token : '\x00' ∉ token.toList → cutField body 1 129 = token.toList
  clientIp : '\x00' ∉ clientIp.toList → cutField body 130 65 = clientIp.toList
  username : '\x00' ∉ username.toList → cutField body 195 129 = username.toList

/-- `read_packet` reads the request as one packet of type 18 and leaves what follows it. -/
structure ReadsAsRequest (data body : Bytes) : Prop where
  length : body.length = 324
  reads : ∀ (transport : SocketTransport) (rest : List Item),
    transport.sock.items = bytesItems data ++ rest →
      transport.readPacket.1 = .ok ({ type := 18, pktSize := 324, status := 0 }, body) ∧
        transport.readPacket.2.sock.items = rest

/-- `build_validate_video_session` raises a `ProtocolError`. -/
def RaisesProtocol (token clientIp username : String) (tokenType : ℤ) : Prop :=
  ∃ error, buildValidateVideoSession token clientIp username tokenType = .error (.ikvm error) ∧
    error.errorClass = .protocol

section Fields

variable {value : String} {encoded : Bytes} {width : ℕ}

theorem fixedAscii_of_fits {field operation : String}
    (isEncoded : PyText.encodeAscii value = some encoded)
    (fits : value.length ≤ width) :
    fixedAscii value width field operation =
      .ok (encoded ++ List.replicate (width - encoded.length) 0) := by
  have length := PyText.length_encodeAscii isEncoded
  simp only [fixedAscii, isEncoded]
  rw [if_neg (by omega)]

theorem fixedAscii_of_tooLong (field operation : String)
    (isEncoded : PyText.encodeAscii value = some encoded) (tooLong : width < value.length) :
    ∃ message, fixedAscii value width field operation =
      .error (protocolError message operation) := by
  have length := PyText.length_encodeAscii isEncoded
  simp only [fixedAscii, isEncoded]
  rw [if_pos (by omega)]
  exact ⟨_, rfl⟩

/-- A padded string without a NUL is cut where its padding begins. -/
theorem takeWhile_padded (isEncoded : PyText.encodeAscii value = some encoded)
    (clean : '\x00' ∉ value.toList) (padding : ℕ) :
    (encoded ++ List.replicate padding 0).takeWhile (fun byte => byte ≠ 0) = encoded := by
  have nonzero : ∀ byte ∈ encoded, decide (byte ≠ 0) = true := by
    intro byte mem
    rw [decide_eq_true_eq]
    rintro rfl
    exact clean ((PyText.zero_mem_encodeAscii isEncoded).mp mem)
  rw [List.takeWhile_append_of_pos nonzero, List.takeWhile_replicate]
  simp

theorem cutField_of_slice {body : Bytes} {offset : ℕ}
    (isEncoded : PyText.encodeAscii value = some encoded) (clean : '\x00' ∉ value.toList)
    (part : slice body offset width =
      encoded ++ List.replicate (width - encoded.length) 0) :
    cutField body offset width = value.toList := by
  rw [cutField, part, takeWhile_padded isEncoded clean,
    PyText.decodeAsciiReplace_encodeAscii isEncoded]

end Fields

section Layout

variable {token clientIp username : String} {tokenBytes ipBytes usernameBytes : Bytes}

/-- The body of the request. -/
def sessionBody (tokenType : ℤ) (tokenBytes ipBytes usernameBytes : Bytes) : Bytes :=
  [lowByte tokenType] ++ (tokenBytes ++ List.replicate (129 - tokenBytes.length) 0) ++
    (ipBytes ++ List.replicate (65 - ipBytes.length) 0) ++
    (usernameBytes ++ List.replicate (129 - usernameBytes.length) 0)

/-- The request as a packet. -/
def sessionPacket (tokenType : ℤ) (tokenBytes ipBytes usernameBytes : Bytes) : WirePacket where
  type := 18
  body := sessionBody tokenType tokenBytes ipBytes usernameBytes

theorem length_sessionBody (tokenType : ℤ) (tokenFits : tokenBytes.length ≤ 129)
    (ipFits : ipBytes.length ≤ 65) (usernameFits : usernameBytes.length ≤ 129) :
    (sessionBody tokenType tokenBytes ipBytes usernameBytes).length = 324 := by
  simp only [sessionBody, List.length_append, List.length_singleton, List.length_replicate]
  omega

/-- The three fields of the body, each padded to its width. -/
theorem slice_sessionBody (tokenType : ℤ) (tokenFits : tokenBytes.length ≤ 129)
    (ipFits : ipBytes.length ≤ 65) (usernameFits : usernameBytes.length ≤ 129) :
    slice (sessionBody tokenType tokenBytes ipBytes usernameBytes) 1 129 =
        tokenBytes ++ List.replicate (129 - tokenBytes.length) 0 ∧
      slice (sessionBody tokenType tokenBytes ipBytes usernameBytes) 130 65 =
        ipBytes ++ List.replicate (65 - ipBytes.length) 0 ∧
      slice (sessionBody tokenType tokenBytes ipBytes usernameBytes) 195 129 =
        usernameBytes ++ List.replicate (129 - usernameBytes.length) 0 := by
  have tokenField : (tokenBytes ++ List.replicate (129 - tokenBytes.length) 0).length = 129 := by
    rw [List.length_append, List.length_replicate]
    omega
  have ipField : (ipBytes ++ List.replicate (65 - ipBytes.length) 0).length = 65 := by
    rw [List.length_append, List.length_replicate]
    omega
  have usernameField :
      (usernameBytes ++ List.replicate (129 - usernameBytes.length) 0).length = 129 := by
    rw [List.length_append, List.length_replicate]
    omega
  unfold sessionBody
  generalize tokenBytes ++ List.replicate (129 - tokenBytes.length) 0 = first at tokenField ⊢
  generalize ipBytes ++ List.replicate (65 - ipBytes.length) 0 = second at ipField ⊢
  generalize usernameBytes ++ List.replicate (129 - usernameBytes.length) 0 = third
    at usernameField ⊢
  refine ⟨?_, ?_, ?_⟩
  · rw [slice, List.append_assoc, List.append_assoc, List.drop_left' (by simp),
      List.take_left' tokenField]
  · rw [slice, List.append_assoc _ second, List.drop_left' (by simp [tokenField]),
      List.take_left' ipField]
  · rw [slice, List.drop_left' (by simp [tokenField, ipField]), ← usernameField, List.take_length]

/-- Strings that fit are built to the packet of the body. -/
theorem buildValidateVideoSession_of_fits (tokenType : ℤ)
    (tokenEncoded : PyText.encodeAscii token = some tokenBytes)
    (ipEncoded : PyText.encodeAscii clientIp = some ipBytes)
    (usernameEncoded : PyText.encodeAscii username = some usernameBytes)
    (fits : FitsFields token clientIp username) :
    buildValidateVideoSession token clientIp username tokenType =
      .ok (sessionPacket tokenType tokenBytes ipBytes usernameBytes).bytes := by
  have tokenLength := PyText.length_encodeAscii tokenEncoded
  have ipLength := PyText.length_encodeAscii ipEncoded
  have usernameLength := PyText.length_encodeAscii usernameEncoded
  rcases fits with ⟨tokenFits, ipFits, usernameFits⟩
  simp only [tokenFieldLen, ipFieldLen, usernameFieldLen] at tokenFits ipFits usernameFits
  have whole := length_sessionBody tokenType (tokenLength ▸ tokenFits) (ipLength ▸ ipFits)
    (usernameLength ▸ usernameFits)
  simp only [buildValidateVideoSession, bind, Except.bind, tokenFieldLen, ipFieldLen,
    usernameFieldLen, fixedAscii_of_fits tokenEncoded tokenFits,
    fixedAscii_of_fits ipEncoded ipFits, fixedAscii_of_fits usernameEncoded usernameFits]
  exact if_neg (not_not.mpr whole)

theorem raisesProtocol_of_tooLong (tokenType : ℤ)
    (tokenEncoded : PyText.encodeAscii token = some tokenBytes)
    (ipEncoded : PyText.encodeAscii clientIp = some ipBytes)
    (usernameEncoded : PyText.encodeAscii username = some usernameBytes)
    (tooLong : ¬ FitsFields token clientIp username) :
    RaisesProtocol token clientIp username tokenType := by
  unfold RaisesProtocol buildValidateVideoSession
  simp only [bind, Except.bind]
  by_cases tokenFits : token.length ≤ tokenFieldLen - 1
  · simp only [fixedAscii_of_fits tokenEncoded tokenFits]
    by_cases ipFits : clientIp.length ≤ ipFieldLen
    · simp only [fixedAscii_of_fits ipEncoded ipFits]
      have usernameLong : usernameFieldLen < username.length := by
        by_contra fits
        exact tooLong ⟨tokenFits, ipFits, not_lt.mp fits⟩
      obtain ⟨message, failed⟩ := fixedAscii_of_tooLong "username"
          "ivtp.build_validate_video_session" usernameEncoded usernameLong
      simp only [failed]
      exact ⟨_, rfl, rfl⟩
    · obtain ⟨message, failed⟩ := fixedAscii_of_tooLong "client_ip"
          "ivtp.build_validate_video_session" ipEncoded (not_le.mp ipFits)
      simp only [failed]
      exact ⟨_, rfl, rfl⟩
  · obtain ⟨message, failed⟩ := fixedAscii_of_tooLong "token"
          "ivtp.build_validate_video_session" tokenEncoded (not_le.mp tokenFits)
    simp only [failed]
    exact ⟨_, rfl, rfl⟩

end Layout

section Codec

variable {token clientIp username : String} {tokenBytes ipBytes usernameBytes : Bytes}

theorem readsAsRequest_sessionPacket (tokenType : ℤ) (tokenFits : tokenBytes.length ≤ 129)
    (ipFits : ipBytes.length ≤ 65) (usernameFits : usernameBytes.length ≤ 129) :
    ReadsAsRequest (sessionPacket tokenType tokenBytes ipBytes usernameBytes).bytes
      (sessionBody tokenType tokenBytes ipBytes usernameBytes) := by
  have length := length_sessionBody tokenType tokenFits ipFits usernameFits
  refine ⟨length, ?_⟩
  intro transport rest front
  have fits : (sessionPacket tokenType tokenBytes ipBytes usernameBytes).body.length ≤
      maxFrameBytes := by
    rw [sessionPacket, length]
    decide
  have reads := WirePacket.reads fits rest
  rw [← front] at reads
  rcases SocketTransport.readPacket_of_reads reads with ⟨value, left⟩
  refine ⟨?_, left⟩
  rw [value]
  have parsed : Header.ofBytes
      (sessionPacket tokenType tokenBytes ipBytes usernameBytes).header.marshal =
        { type := 18, pktSize := 324, status := 0 } := by
    rw [WirePacket.ofBytes_marshal_header (lt_of_le_of_lt fits (by decide)), WirePacket.header,
      sessionPacket, length]
    rfl
  simp only [Except.mapError, Except.map, parsed]
  rfl

theorem carries_sessionBody (tokenType : ℤ)
    (tokenEncoded : PyText.encodeAscii token = some tokenBytes)
    (ipEncoded : PyText.encodeAscii clientIp = some ipBytes)
    (usernameEncoded : PyText.encodeAscii username = some usernameBytes)
    (tokenFits : tokenBytes.length ≤ 129) (ipFits : ipBytes.length ≤ 65)
    (usernameFits : usernameBytes.length ≤ 129) :
    Carries token clientIp username tokenType
      (sessionBody tokenType tokenBytes ipBytes usernameBytes) := by
  rcases slice_sessionBody tokenType tokenFits ipFits usernameFits with ⟨first, second, third⟩
  refine ⟨?_, ?_, ?_, ?_⟩
  · simp [sessionBody]
  · exact fun clean => cutField_of_slice tokenEncoded clean first
  · exact fun clean => cutField_of_slice ipEncoded clean second
  · exact fun clean => cutField_of_slice usernameEncoded clean third

/-- What is read back out of the body of a packet determines the strings and the token type. -/
theorem Carries.unique {token' clientIp' username' : String} {tokenType tokenType' : ℤ}
    {body : Bytes} (carries : Carries token clientIp username tokenType body)
    (carries' : Carries token' clientIp' username' tokenType' body)
    (clean : '\x00' ∉ token.toList ∧ '\x00' ∉ clientIp.toList ∧ '\x00' ∉ username.toList)
    (clean' : '\x00' ∉ token'.toList ∧ '\x00' ∉ clientIp'.toList ∧ '\x00' ∉ username'.toList)
    (small : 0 ≤ tokenType ∧ tokenType < 256) (small' : 0 ≤ tokenType' ∧ tokenType' < 256) :
    token = token' ∧ clientIp = clientIp' ∧ username = username' ∧ tokenType = tokenType' := by
  refine ⟨?_, ?_, ?_, ?_⟩
  · exact String.toList_inj.mp ((carries.token clean.1).symm.trans (carries'.token clean'.1))
  · exact String.toList_inj.mp
      ((carries.clientIp clean.2.1).symm.trans (carries'.clientIp clean'.2.1))
  · exact String.toList_inj.mp
      ((carries.username clean.2.2).symm.trans (carries'.username clean'.2.2))
  · have same := carries.tokenType.symm.trans carries'.tokenType
    rw [Option.some.injEq, Int.emod_eq_of_lt small.1 small.2,
      Int.emod_eq_of_lt small'.1 small'.2] at same
    exact same

end Codec

/-- The strings of a request. -/
structure Strings where
  token : String
  clientIp : String
  username : String
deriving DecidableEq, Repr

namespace Strings

def IsAscii (strings : Strings) : Prop :=
  PyText.isAscii strings.token = true ∧ PyText.isAscii strings.clientIp = true ∧
    PyText.isAscii strings.username = true

def HasNoNul (strings : Strings) : Prop :=
  '\x00' ∉ strings.token.toList ∧ '\x00' ∉ strings.clientIp.toList ∧
    '\x00' ∉ strings.username.toList

def Fits (strings : Strings) : Prop :=
  FitsFields strings.token strings.clientIp strings.username

/-- `build_validate_video_session` on these strings. -/
def build (strings : Strings) (tokenType : ℤ) : Except Exn Bytes :=
  buildValidateVideoSession strings.token strings.clientIp strings.username tokenType

/-- Strings that fit are built to a packet that carries them. -/
theorem build_of_fits {strings : Strings} (ascii : strings.IsAscii) (fits : strings.Fits)
    (tokenType : ℤ) :
    ∃ data body, strings.build tokenType = .ok data ∧ ReadsAsRequest data body ∧
      Carries strings.token strings.clientIp strings.username tokenType body := by
  obtain ⟨tokenBytes, tokenEncoded⟩ := Option.isSome_iff_exists.mp
    ((PyText.encodeAscii_isSome strings.token).trans ascii.1)
  obtain ⟨ipBytes, ipEncoded⟩ := Option.isSome_iff_exists.mp
    ((PyText.encodeAscii_isSome strings.clientIp).trans ascii.2.1)
  obtain ⟨usernameBytes, usernameEncoded⟩ := Option.isSome_iff_exists.mp
    ((PyText.encodeAscii_isSome strings.username).trans ascii.2.2)
  have tokenFits : tokenBytes.length ≤ 129 := PyText.length_encodeAscii tokenEncoded ▸ fits.1
  have ipFits : ipBytes.length ≤ 65 := PyText.length_encodeAscii ipEncoded ▸ fits.2.1
  have usernameFits : usernameBytes.length ≤ 129 :=
    PyText.length_encodeAscii usernameEncoded ▸ fits.2.2
  exact ⟨_, _, buildValidateVideoSession_of_fits tokenType tokenEncoded ipEncoded usernameEncoded
      fits,
    readsAsRequest_sessionPacket tokenType tokenFits ipFits usernameFits,
    carries_sessionBody tokenType tokenEncoded ipEncoded usernameEncoded tokenFits ipFits
      usernameFits⟩

theorem raisesProtocol_iff {strings : Strings} (ascii : strings.IsAscii) (tokenType : ℤ) :
    RaisesProtocol strings.token strings.clientIp strings.username tokenType ↔
      ¬ strings.Fits := by
  constructor
  · rintro ⟨error, failed, -⟩ fits
    obtain ⟨data, body, built, -⟩ := build_of_fits ascii fits tokenType
    rw [build, failed] at built
    cases built
  · intro tooLong
    obtain ⟨tokenBytes, tokenEncoded⟩ := Option.isSome_iff_exists.mp
      ((PyText.encodeAscii_isSome strings.token).trans ascii.1)
    obtain ⟨ipBytes, ipEncoded⟩ := Option.isSome_iff_exists.mp
      ((PyText.encodeAscii_isSome strings.clientIp).trans ascii.2.1)
    obtain ⟨usernameBytes, usernameEncoded⟩ := Option.isSome_iff_exists.mp
      ((PyText.encodeAscii_isSome strings.username).trans ascii.2.2)
    exact raisesProtocol_of_tooLong tokenType tokenEncoded ipEncoded usernameEncoded tooLong

end Strings

/-- The request is refused exactly when a string is too long for its field; otherwise it is read
back as one packet, and requests without NULs are told apart by their packets. -/
theorem validateVideoSession_codec (strings : Strings) (tokenType : ℤ)
    (ascii : strings.IsAscii) :
    (RaisesProtocol strings.token strings.clientIp strings.username tokenType ↔
      ¬ strings.Fits) ∧
    (strings.Fits → ∃ data body, strings.build tokenType = .ok data ∧ ReadsAsRequest data body ∧
      Carries strings.token strings.clientIp strings.username tokenType body) ∧
    (∀ strings' tokenType' data, strings'.IsAscii → strings.HasNoNul → strings'.HasNoNul →
      0 ≤ tokenType ∧ tokenType < 256 → 0 ≤ tokenType' ∧ tokenType' < 256 →
      strings.build tokenType = .ok data → strings'.build tokenType' = .ok data →
        strings = strings' ∧ tokenType = tokenType') := by
  refine ⟨Strings.raisesProtocol_iff ascii tokenType,
    fun fits => Strings.build_of_fits ascii fits tokenType, ?_⟩
  intro strings' tokenType' data ascii' clean clean' small small' built built'
  have fits (given : Strings) (givenAscii : given.IsAscii) (givenType : ℤ)
      (givenBuilt : given.build givenType = .ok data) : given.Fits := by
    by_contra tooLong
    obtain ⟨error, failed, -⟩ := (Strings.raisesProtocol_iff givenAscii givenType).mpr tooLong
    rw [Strings.build, failed] at givenBuilt
    cases givenBuilt
  obtain ⟨first, body, isFirst, reads, carries⟩ :=
    Strings.build_of_fits ascii (fits strings ascii tokenType built) tokenType
  obtain ⟨second, body', isSecond, reads', carries'⟩ :=
    Strings.build_of_fits ascii' (fits strings' ascii' tokenType' built') tokenType'
  obtain rfl : first = data := by
    rw [built] at isFirst
    exact (Except.ok.inj isFirst).symm
  obtain rfl : second = first := by
    rw [built'] at isSecond
    exact (Except.ok.inj isSecond).symm
  obtain rfl : body = body' := by
    have stream : (⟨{ inbound := second.map fun byte => .data byte [] }⟩ :
        SocketTransport).sock.items = bytesItems second ++ [] := by
      simp only [Sock.items, Arrival.items, bytesItems, List.flatMap_map, List.append_nil]
      exact List.map_eq_flatMap.symm
    have read := (reads.reads _ [] stream).1
    rw [(reads'.reads _ [] stream).1] at read
    exact (congrArg Prod.snd (Except.ok.inj read)).symm
  rcases carries.unique carries' clean clean' small small' with
    ⟨sameToken, sameIp, sameUsername, sameType⟩
  cases strings
  cases strings'
  cases sameToken
  cases sameIp
  cases sameUsername
  exact ⟨rfl, sameType⟩

/-- A request with an address that fills its field. -/
def fullAddress : Strings where
  token := "token"
  clientIp := String.ofList (List.replicate 65 '1')
  username := "admin"

theorem validateVideoSession_codec_full_address :
    ∃ data body, fullAddress.build 0 = .ok data ∧ ReadsAsRequest data body ∧
      Carries fullAddress.token fullAddress.clientIp fullAddress.username 0 body :=
  (validateVideoSession_codec fullAddress 0 ⟨by decide, by decide, by decide⟩).2.1
    ⟨by decide, by decide, by decide⟩

end Asmb8Ikvm.Ivtp

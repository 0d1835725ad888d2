import Asmb8Ikvm.Iusb.Cdrom

/-!
# What the emulator answers

The responses of `CDROMDevice` as a host sees them. The envelope of a request
comes back with the length of the data in it, and the data follows; this goes
wrong when the second length field lies in the data. A response can be framed
when its length fits the fields of four bytes. The capacity, the table of
contents and the reads are about one medium, up to a last block that is not full.
-/

namespace Asmb8Ikvm.Iusb

open Bytes

universe u

namespace CDROMDevice

/-- The response is the envelope with the length of the data in its two fields, and then the
data. -/
structure Enveloped (req : Packet) (data resp : Bytes) : Prop where
  length : resp.length = req.payload.length + data.length
  dataIn : resp.drop req.payload.length = data
  dataLen : resp.take 4 = le 4 data.length
  respLen : envOffRespLen + 4 ≤ req.payload.length →
    slice resp envOffRespLen 4 = le 4 data.length
  others : ∀ i < req.payload.length, 4 ≤ i →
    ¬ (envOffRespLen + 4 ≤ req.payload.length ∧ envOffRespLen ≤ i ∧ i < envOffRespLen + 4) →
    resp[i]? = req.payload[i]?

section Envelope

variable {req : Packet} {data : Bytes}

/-- The bytes of a response: the first field, the second field when the response is long
enough for it, and otherwise the envelope and the data. -/
theorem buildResponse_bytes (carries : 4 ≤ req.payload.length) (fits : data.length < 2 ^ 32) :
    ∃ resp, buildResponse req data = .ok resp ∧
      resp.length = req.payload.length + data.length ∧
      ∀ i, resp[i]? =
        if i < 4 then (le 4 data.length)[i]?
        else if envOffRespLen + 4 ≤ req.payload.length + data.length ∧ envOffRespLen ≤ i ∧
          i < envOffRespLen + 4 then (le 4 data.length)[i - envOffRespLen]?
        else (req.payload ++ data)[i]? := by
  have length : (req.payload ++ data).length = req.payload.length + data.length :=
    List.length_append
  have room : envOffDataLen + (le 4 data.length).length ≤ (req.payload ++ data).length := by
    rw [length, length_le, envOffDataLen]
    omega
  have first : storeLength envOffDataLen data.length (req.payload ++ data) =
      .ok (overwrite (req.payload ++ data) envOffDataLen (le 4 data.length)) := by
    rw [storeLength, if_pos (by rw [length, envOffDataLen]; omega), toBytesLittle, if_pos fits]
    rfl
  have firstLength := length_overwrite room
  have firstBytes := getElem?_overwrite room
  simp only [buildResponse, first]
  generalize overwrite (req.payload ++ data) envOffDataLen (le 4 data.length) = out at *
  rw [length] at firstLength
  by_cases long : envOffRespLen + 4 ≤ req.payload.length + data.length
  · have second : envOffRespLen + (le 4 data.length).length ≤ out.length := by
      rw [firstLength, length_le]
      exact long
    refine ⟨overwrite out envOffRespLen (le 4 data.length), ?_, ?_, ?_⟩
    · change storeLength envOffRespLen data.length out = _
      rw [storeLength, if_pos (by rw [firstLength]; exact long), toBytesLittle, if_pos fits]
      rfl
    · rw [length_overwrite second, firstLength]
    · intro i
      rw [getElem?_overwrite second, firstBytes]
      simp only [length_le, envOffDataLen, Nat.not_lt_zero, if_false, Nat.zero_add, Nat.sub_zero,
        long, true_and]
      by_cases before : i < envOffRespLen
      · rw [if_pos before, if_neg (by omega : ¬ (envOffRespLen ≤ i ∧ _))]
      · have beyond : ¬ i < 4 := by
          rw [envOffRespLen] at before
          omega
        simp only [if_neg before, if_neg beyond]
        by_cases inside : i < envOffRespLen + 4
        · rw [if_pos inside, if_pos ⟨not_lt.mp before, inside⟩]
        · rw [if_neg inside, if_neg (fun second => inside second.2)]
  · refine ⟨out, ?_, firstLength, ?_⟩
    · change storeLength envOffRespLen data.length out = _
      rw [storeLength, if_neg (by rw [firstLength]; exact long)]
    · intro i
      rw [firstBytes, if_neg (by omega : ¬ (envOffRespLen + 4 ≤ _ ∧ _))]
      simp only [length_le, envOffDataLen, Nat.not_lt_zero, if_false, Nat.zero_add, Nat.sub_zero]

/-- An enveloped response to a short envelope is the envelope and the data from the fourth
byte on. -/
theorem Enveloped.bytes_of_short {resp : Bytes} (enveloped : Enveloped req data resp)
    (short : req.payload.length < 29) {i : ℕ} (beyond : 4 ≤ i) :
    resp[i]? = (req.payload ++ data)[i]? := by
  by_cases inside : i < req.payload.length
  · rw [List.getElem?_append_left inside]
    refine enveloped.others i inside beyond ?_
    rw [envOffRespLen]
    omega
  · rw [List.getElem?_append_right (not_lt.mp inside), ← enveloped.dataIn, List.getElem?_drop]
    congr 1
    omega

/-- What it takes for a response to be enveloped. -/
theorem Enveloped.of_bytes {resp : Bytes}
    (length : resp.length = req.payload.length + data.length)
    (first : ∀ i < 4, resp[i]? = (le 4 data.length)[i]?)
    (second : envOffRespLen + 4 ≤ req.payload.length →
      ∀ i < 4, resp[envOffRespLen + i]? = (le 4 data.length)[i]?)
    (kept : ∀ i, 4 ≤ i → ¬ (envOffRespLen + 4 ≤ req.payload.length ∧ envOffRespLen ≤ i ∧
      i < envOffRespLen + 4) → resp[i]? = (req.payload ++ data)[i]?)
    (carries : 4 ≤ req.payload.length) : Enveloped req data resp := by
  have fourBytes {field : Bytes} (ends : field.length = 4) (i : ℕ) (outside : ¬ i < 4) :
      none = field[i]? :=
    (List.getElem?_eq_none (by omega)).symm
  refine ⟨length, ?_, ?_, ?_, ?_⟩
  · apply List.ext_getElem?
    intro i
    rw [List.getElem?_drop, kept _ (by omega) (by omega),
      List.getElem?_append_right (Nat.le_add_right _ _), Nat.add_sub_cancel_left]
  · apply List.ext_getElem?
    intro i
    rw [List.getElem?_take]
    split_ifs with inside
    · exact first i inside
    · exact fourBytes (length_le ..) i inside
  · intro long
    apply List.ext_getElem?
    intro i
    rw [getElem?_slice]
    split_ifs with inside
    · exact second long i inside
    · exact fourBytes (length_le ..) i inside
  · intro i inside beyond outside
    rw [kept i beyond outside, List.getElem?_append_left inside]

/-- The data keeps its bytes and so does the envelope, but for its length fields, exactly when
the second field lies in the envelope, or is not there, or holds the length already. -/
theorem enveloped_iff (req : Packet) (data : Bytes) (carries : 10 ≤ req.payload.length)
    (fits : data.length < 2 ^ 32) :
    (∃ resp, buildResponse req data = .ok resp ∧ Enveloped req data resp) ↔
      29 ≤ req.payload.length ∨ req.payload.length + data.length < 29 ∨
        slice (req.payload ++ data) 25 4 = le 4 data.length := by
  have envelope : 4 ≤ req.payload.length := by
    omega
  rcases buildResponse_bytes envelope fits with ⟨resp, built, length, bytes⟩
  constructor
  · rintro ⟨other, alsoBuilt, enveloped⟩
    rw [built] at alsoBuilt
    cases alsoBuilt
    by_contra apart
    push Not at apart
    rcases apart with ⟨short, long, differs⟩
    refine differs (List.ext_getElem? fun i => ?_)
    rw [getElem?_slice]
    split_ifs with inside
    · rw [← enveloped.bytes_of_short short (by omega), bytes, if_neg (by omega),
        if_pos (by rw [envOffRespLen]; omega), envOffRespLen, Nat.add_sub_cancel_left]
    · exact (List.getElem?_eq_none (by rw [length_le]; omega)).symm
  · intro condition
    refine ⟨resp, built, Enveloped.of_bytes length ?_ ?_ ?_ envelope⟩
    · intro i inside
      rw [bytes, if_pos inside]
    · intro long i inside
      rw [envOffRespLen] at long
      rw [bytes, if_neg (by rw [envOffRespLen]; omega), if_pos (by rw [envOffRespLen]; omega),
        Nat.add_sub_cancel_left]
    · intro i beyond outside
      rw [bytes, if_neg (by omega)]
      split_ifs with second
      · rw [envOffRespLen] at outside second ⊢
        rcases condition with long | short | same
        · omega
        · omega
        · rw [← same, getElem?_slice, if_pos (by omega)]
          congr 1
          omega
      · rfl

/-- A read of one block in an envelope of 29 bytes. -/
theorem enveloped_readFirstBlock :
    ∃ resp, buildResponse readFirstBlock [7, 8] = .ok resp ∧
      Enveloped readFirstBlock [7, 8] resp :=
  (enveloped_iff readFirstBlock [7, 8] (by decide) (by decide)).mpr (.inl (by decide))

/-- READ CAPACITY in an envelope of 27 bytes. -/
def shortReadCapacity : Packet where
  header := { dataPacketLen := 27 }
  payload := [0, 0, 0, 0, 0x63, 0, 0, 0, 1, 0x25] ++ List.replicate 17 0

/-- The capacity of a medium of 65537 blocks, behind an envelope of 27 bytes: the host is told
that the last block has the address zero. -/
theorem not_enveloped_shortReadCapacity :
    ¬ ∃ resp, buildResponse shortReadCapacity (be 4 65536 ++ be 4 2048) = .ok resp ∧
      Enveloped shortReadCapacity (be 4 65536 ++ be 4 2048) resp := by
  rintro ⟨resp, built, enveloped⟩
  have corrupted : buildResponse shortReadCapacity (be 4 65536 ++ be 4 2048) =
      .ok ([8, 0, 0, 0, 0x63, 0, 0, 0, 1, 0x25] ++ List.replicate 15 0 ++
        [8, 0, 0, 0, 0, 0, 0, 0, 8, 0]) := by
    decide
  rw [corrupted] at built
  cases built
  exact absurd enveloped.dataIn (by decide)

end Envelope

/-- The allocation length of a command block, when there is one and it is not zero. -/
def allocationLength (cdb : Bytes) : Option ℕ :=
  if 9 ≤ cdb.length ∧ ofBE (slice cdb 7 2) ≠ 0 then some (ofBE (slice cdb 7 2)) else none

/-- The number of bytes of the table of contents that are returned. -/
def tocLength (cdb : Bytes) : ℕ :=
  match allocationLength cdb with
  | some alloc => min 20 alloc
  | none => 20

theorem tocLength_le (cdb : Bytes) : tocLength cdb ≤ 20 := by
  unfold tocLength
  split
  · exact min_le_left _ _
  · exact le_refl _

/-- The number of bytes as `_read_toc` finds it. -/
theorem tocLength_eq (cdb : Bytes) {alloc : ℕ}
    (isAlloc : alloc = if 9 ≤ cdb.length then ofBE (slice cdb 7 2) else 0) :
    tocLength cdb = if alloc ≠ 0 ∧ alloc < 20 then alloc else 20 := by
  rw [tocLength, allocationLength]
  by_cases long : 9 ≤ cdb.length
  · rw [if_pos long] at isAlloc
    rw [← isAlloc]
    by_cases zero : alloc = 0
    · simp [zero]
    · rw [if_pos ⟨long, zero⟩]
      dsimp only
      split_ifs <;> omega
  · rw [if_neg long] at isAlloc
    rw [if_neg fun both => long both.1, isAlloc]
    rfl

/-- The table of contents with one track, and the lead-out at `leadOut`. -/
def fullToc (leadOut : ℕ) : Bytes :=
  be 2 18 ++ [1, 1] ++ ([0, 0x14, 1, 0] ++ be 4 0) ++ ([0, 0x14, 0xAA, 0] ++ be 4 leadOut)

@[simp]
theorem length_fullToc (leadOut : ℕ) : (fullToc leadOut).length = 20 := by
  simp [fullToc]

section Toc

variable {ρ : Type u} {device : CDROMDevice ρ}

theorem readToc_take (cdb : Bytes) (fits : device.lastLba + 1 < 2 ^ 32) :
    device.readToc cdb = .ok ((fullToc (device.lastLba + 1)).take (tocLength cdb)) := by
  have full : be 2 (([0, 0x14, 1, 0] ++ be 4 0 ++ ([0, 0x14, 0xAA, 0] ++
      be 4 (device.lastLba + 1)) : Bytes).length + 2) ++ [1, 1] ++
      ([0, 0x14, 1, 0] ++ be 4 0 ++ ([0, 0x14, 0xAA, 0] ++ be 4 (device.lastLba + 1))) =
      fullToc (device.lastLba + 1) := by
    simp [fullToc]
  have length := length_fullToc (device.lastLba + 1)
  have whole : (fullToc (device.lastLba + 1)).take 20 = fullToc (device.lastLba + 1) :=
    List.take_of_length_le length.le
  simp only [readToc, track_eq 1 (show 0 < 2 ^ 32 by decide), track_eq 0xAA fits]
  refine congrArg Except.ok ?_
  rw [full, length]
  generalize isAlloc : (if 9 ≤ cdb.length then ofBE (slice cdb 7 2) else 0) = alloc
  rw [tocLength_eq cdb isAlloc.symm]
  split_ifs
  · rfl
  · exact whole.symm

theorem readToc_overflow (cdb : Bytes) (large : 2 ^ 32 ≤ device.lastLba + 1) :
    device.readToc cdb = .error .overflowError := by
  have leadOut : track 0xAA (device.lastLba + 1) = .error .overflowError := by
    simp only [track, toBytesBig, if_neg (not_lt.mpr large)]
    rfl
  simp only [readToc, track_eq 1 (show 0 < 2 ^ 32 by decide), leadOut]
  rfl

theorem readCapacity_overflow (large : 2 ^ 32 ≤ device.lastLba) :
    device.readCapacity = .error .overflowError := by
  simp only [readCapacity, toBytesBig, if_neg (not_lt.mpr large)]
  rfl

end Toc

/-- The number of bytes a command returns. -/
def dataLength (req : Packet) : ℕ :=
  if req.opcode = scsiReadCapacity10 then 8
  else if req.opcode = scsiRead10 ∨ req.opcode = scsiRead12 then req.blocks * cdBlockSize
  else if req.opcode = scsiReadToc then tocLength req.cdb
  else 0

/-- The addresses and lengths of the response to a request fit into fields of four bytes, on a
medium of `size` bytes. -/
structure Framable (size : ℕ) (req : Packet) : Prop where
  capacity : req.opcode = scsiReadCapacity10 → size / cdBlockSize ≤ 2 ^ 32
  toc : req.opcode = scsiReadToc → size / cdBlockSize < 2 ^ 32
  length : req.payload.length + dataLength req < 2 ^ 32

/-- A request without opcode has no answer; any other is answered by a payload that comes back
from the frame it is sent in. -/
def Total {ρ : Type u} [Reader ρ] (device : CDROMDevice ρ) (req : Packet) : Prop :=
  if req.payload.length ≤ 9 then (device.handle req).1 = .ok none
  else
    ∃ payload, (device.handle req).1 = .ok (some payload) ∧ payload.length < 2 ^ 32 ∧
      ∀ reqHeader deviceType, ∃ header,
        parseRequestFrame (buildResponseFrame reqHeader payload deviceType) =
          .ok { header, payload }

theorem parse_buildResponseFrame (reqHeader : Header) (deviceType : ℤ) {payload : Bytes}
    (fits : payload.length < 2 ^ 32) :
    ∃ header, parseRequestFrame (buildResponseFrame reqHeader payload deviceType) =
      .ok { header, payload } := by
  unfold buildResponseFrame
  rw [parseRequestFrame_marshal]
  have same : (payload.length : ℤ) = (payload.length : ℤ) % 2 ^ 32 := by
    omega
  rw [if_neg (not_not.mpr same)]
  exact ⟨_, rfl⟩

theorem buildResponse_overflow {req : Packet} {data : Bytes} (carries : 4 ≤ req.payload.length)
    (large : 2 ^ 32 ≤ data.length) : buildResponse req data = .error .overflowError := by
  have first : storeLength envOffDataLen data.length (req.payload ++ data) =
      .error .overflowError := by
    rw [storeLength, if_pos (by rw [List.length_append, envOffDataLen]; omega), toBytesLittle,
      if_neg (by omega)]
    rfl
  rw [buildResponse]
  simp only [first]
  rfl

section Totality

variable {ρ : Type u} [Reader ρ] [LawfulReader ρ] {device : CDROMDevice ρ} {req : Packet}

/-- A command returns its number of bytes, or an address does not fit its field. -/
theorem dispatch_length (valid : LawfulReader.Valid device.r) (req : Packet) :
    if (req.opcode = scsiReadCapacity10 → device.lastLba < 2 ^ 32) ∧
        (req.opcode = scsiReadToc → device.lastLba + 1 < 2 ^ 32) then
      ∃ data, (device.dispatch req.opcode req.cdb).1 = .ok data ∧ data.length = dataLength req
    else (device.dispatch req.opcode req.cdb).1 = .error .overflowError := by
  by_cases capacity : req.opcode = scsiReadCapacity10
  · have notToc : req.opcode ≠ scsiReadToc := by
      rw [capacity]
      decide
    have dispatched : (device.dispatch req.opcode req.cdb).1 = device.readCapacity := by
      rw [capacity]
      rfl
    rw [dispatched, dataLength, if_pos capacity]
    by_cases fits : device.lastLba < 2 ^ 32
    · rw [if_pos ⟨fun _ => fits, fun toc => absurd toc notToc⟩, readCapacity_eq fits]
      exact ⟨_, rfl, by simp⟩
    · rw [if_neg fun representable => fits (representable.1 capacity)]
      exact readCapacity_overflow (not_lt.mp fits)
  · by_cases toc : req.opcode = scsiReadToc
    · have notRead : ¬ (req.opcode = scsiRead10 ∨ req.opcode = scsiRead12) := by
        rw [toc]
        decide
      have dispatched : (device.dispatch req.opcode req.cdb).1 = device.readToc req.cdb := by
        rw [toc]
        rfl
      rw [dispatched, dataLength, if_neg capacity, if_neg notRead, if_pos toc]
      by_cases fits : device.lastLba + 1 < 2 ^ 32
      · rw [if_pos ⟨fun same => absurd same capacity, fun _ => fits⟩, readToc_take _ fits]
        refine ⟨_, rfl, ?_⟩
        rw [List.length_take, length_fullToc]
        exact min_eq_left (tocLength_le req.cdb)
      · rw [if_neg fun representable => fits (representable.2 toc)]
        exact readToc_overflow _ (not_lt.mp fits)
    · rw [if_pos ⟨fun same => absurd same capacity, fun same => absurd same toc⟩, dataLength,
        if_neg capacity]
      by_cases isRead : req.opcode = scsiRead10 ∨ req.opcode = scsiRead12
      · rcases read_eq valid req.lba req.blocks with ⟨later, result, -⟩
        rw [dispatch_read isRead, result, if_pos isRead]
        exact ⟨_, rfl, length_imageBytes ..⟩
      · rw [if_neg isRead, if_neg toc]
        rw [not_or] at isRead
        refine ⟨[], ?_, rfl⟩
        simp only [dispatch, if_neg capacity, if_neg isRead.1, if_neg isRead.2, if_neg toc]
        split_ifs <;> rfl

/-- Exactly the framable requests are answered as they should be. -/
theorem total_iff (valid : LawfulReader.Valid device.r) (req : Packet) :
    Total device req ↔ req.payload.length ≤ 9 ∨
      ((req.opcode = scsiReadCapacity10 → device.lastLba < 2 ^ 32) ∧
        (req.opcode = scsiReadToc → device.lastLba + 1 < 2 ^ 32)) ∧
      req.payload.length + dataLength req < 2 ^ 32 := by
  unfold Total
  by_cases short : req.payload.length ≤ 9
  · rw [if_pos short]
    refine iff_of_true ?_ (.inl short)
    rw [handle_of_short short]
  · rw [if_neg short, or_iff_right short]
    have long : opcodeOffset < req.payload.length := not_le.mp short
    have carries : 4 ≤ req.payload.length := by
      omega
    rw [handle_of_long long]
    have dispatched := dispatch_length valid req
    split_ifs at dispatched with representable
    · rcases dispatched with ⟨data, result, length⟩
      rw [result, ← length]
      change (∃ payload, (buildResponse req data).map some = .ok (some payload) ∧ _) ↔ _
      by_cases fits : data.length < 2 ^ 32
      · rcases buildResponse_bytes carries fits with ⟨resp, built, respLength, -⟩
        rw [built, ← respLength]
        constructor
        · rintro ⟨payload, same, bounded, -⟩
          cases same
          exact ⟨representable, bounded⟩
        · rintro ⟨-, bounded⟩
          exact ⟨resp, rfl, bounded, fun reqHeader deviceType =>
            parse_buildResponseFrame reqHeader deviceType bounded⟩
      · rw [buildResponse_overflow carries (not_lt.mp fits)]
        refine iff_of_false ?_ ?_
        · rintro ⟨payload, same, -⟩
          cases same
        · rintro ⟨-, bounded⟩
          omega
    · rw [dispatched]
      refine iff_of_false ?_ fun framable => representable framable.1
      rintro ⟨payload, same, -⟩
      cases same

omit [LawfulReader ρ] in
/-- The bounds on the last address as bounds on the size of the image. -/
theorem addresses_iff (reader : ρ) :
    ((new reader).lastLba < 2 ^ 32 ↔ Reader.size reader / cdBlockSize ≤ 2 ^ 32) ∧
      ((new reader).lastLba + 1 < 2 ^ 32 ↔ Reader.size reader / cdBlockSize < 2 ^ 32) := by
  unfold new
  dsimp only
  split_ifs <;> omega

end Totality

/-- Through any cache in front of the image file and after any requests, a request is answered
as it should be exactly when it has no opcode or is framable. -/
theorem total_iff_framable (image : Bytes) (writer : Option (Writer FileReader))
    {windowSize : ℕ} (maxWindows : ℕ) (history : List Packet) (req : Packet)
    (positive : 1 ≤ windowSize) :
    Total ((new (Cache.new (⟨image⟩ : FileReader) writer windowSize maxWindows)).serve
        history) req ↔
      req.payload.length ≤ 9 ∨ Framable image.length req := by
  have valid : LawfulReader.Valid
      (new (Cache.new (⟨image⟩ : FileReader) writer windowSize maxWindows)).r :=
    Cache.new_valid writer maxWindows positive trivial
  have same := serve_sameImage valid history
  have addresses := addresses_iff (Cache.new (⟨image⟩ : FileReader) writer windowSize maxWindows)
  have size : Reader.size (Cache.new (⟨image⟩ : FileReader) writer windowSize maxWindows) =
      image.length := rfl
  rw [size] at addresses
  rw [total_iff same.valid, same.lastLba, addresses.1, addresses.2]
  refine or_congr_right ⟨?_, ?_⟩
  · rintro ⟨⟨capacity, toc⟩, length⟩
    exact ⟨capacity, toc, length⟩
  · intro framable
    exact ⟨⟨framable.capacity, framable.toc⟩, framable.length⟩

/-- The second read of the first block of a two-byte image. -/
theorem total_readFirstBlock :
    Total ((new (Cache.new (⟨[7, 8]⟩ : FileReader) none 1 1)).serve [readFirstBlock])
      readFirstBlock :=
  (total_iff_framable [7, 8] none 1 [readFirstBlock] readFirstBlock (by decide)).mpr
    (.inr ⟨by decide, by decide, by decide⟩)

/-- READ(12) of 2097152 blocks, 4 GiB. -/
def readFourGiB : Packet where
  header := { dataPacketLen := 29 }
  payload := List.replicate 9 0 ++ [0xA8, 0, 0, 0, 0, 0, 0, 0x20, 0, 0] ++ List.replicate 10 0

theorem not_total_readFourGiB : ¬ Total (new (⟨[7, 8]⟩ : FileReader)) readFourGiB := by
  rw [total_iff (show LawfulReader.Valid (new (⟨[7, 8]⟩ : FileReader)).r from trivial)]
  decide

section Medium

variable {ρ : Type u}

/-- The reported capacity, the table of contents and the blocks of an image of `size` bytes
agree. -/
structure SameMedium (size : ℕ) (device : CDROMDevice ρ) : Prop where
  lastLba : device.lastLba + 1 = size ⌈/⌉ cdBlockSize
  covered : ∀ i < size, i / cdBlockSize ≤ device.lastLba
  within : ∀ lba ≤ device.lastLba, lba * cdBlockSize < size
  capacity : ∃ data, device.readCapacity = .ok data ∧ ofBE (slice data 0 4) = device.lastLba ∧
    ofBE (slice data 4 4) = cdBlockSize
  toc : ∃ full : Bytes, full.length = 20 ∧ ofBE (slice full 16 4) = device.lastLba + 1 ∧
    ∀ cdb, ∃ data, device.readToc cdb = .ok data ∧ data = full.take (tocLength cdb) ∧
      (2 ≤ data.length → ofBE (slice data 0 2) + 2 = full.length)

theorem ofBE_be (width value : ℕ) : ofBE (be width value) = value % 256 ^ width := by
  rw [ofBE, be, List.reverse_reverse, ofLE_le]

/-- Capacity and table of contents agree on every medium whose addresses fit. -/
theorem toc_of_fits {device : CDROMDevice ρ} (fits : device.lastLba + 1 < 2 ^ 32) :
    (∃ data, device.readCapacity = .ok data ∧ ofBE (slice data 0 4) = device.lastLba ∧
      ofBE (slice data 4 4) = cdBlockSize) ∧
    ∃ full : Bytes, full.length = 20 ∧ ofBE (slice full 16 4) = device.lastLba + 1 ∧
      ∀ cdb, ∃ data, device.readToc cdb = .ok data ∧ data = full.take (tocLength cdb) ∧
        (2 ≤ data.length → ofBE (slice data 0 2) + 2 = full.length) := by
  refine ⟨⟨_, readCapacity_eq (by omega), ?_, ?_⟩, fullToc (device.lastLba + 1),
    length_fullToc _, ?_, ?_⟩
  · have first : slice (be 4 device.lastLba ++ be 4 cdBlockSize) 0 4 = be 4 device.lastLba := by
      rw [slice, List.drop_zero, List.take_left' (length_be ..)]
    rw [first, ofBE_be]
    omega
  · have second : slice (be 4 device.lastLba ++ be 4 cdBlockSize) 4 4 = be 4 cdBlockSize := by
      rw [slice, List.drop_left' (length_be ..), List.take_of_length_le (length_be ..).le]
    rw [second, ofBE_be]
    rfl
  · have leadOut : slice (fullToc (device.lastLba + 1)) 16 4 = be 4 (device.lastLba + 1) := rfl
    rw [leadOut, ofBE_be]
    omega
  · intro cdb
    refine ⟨_, readToc_take cdb fits, rfl, ?_⟩
    intro long
    rw [List.length_take, length_fullToc] at long
    have header : slice ((fullToc (device.lastLba + 1)).take (tocLength cdb)) 0 2 = be 2 18 := by
      rw [slice, List.drop_zero, List.take_take, min_eq_left (by omega)]
      rfl
    rw [header, length_fullToc, ofBE_be]
    rfl

theorem ceilDiv_cdBlockSize (size : ℕ) : size ⌈/⌉ cdBlockSize = (size + 2047) / 2048 :=
  Nat.ceilDiv_eq_add_pred_div ..

variable [Reader ρ]

/-- The reported medium is the image exactly when the image is smaller than a block or ends
with a full block. -/
theorem sameMedium_iff (reader : ρ) (nonempty : 1 ≤ Reader.size reader)
    (bounded : Reader.size reader < 2 ^ 32 * 2048) :
    SameMedium (Reader.size reader) (new reader) ↔
      Reader.size reader < 2048 ∨ 2048 ∣ Reader.size reader := by
  have lastLba : (new reader).lastLba = Reader.size reader / 2048 - 1 := by
    unfold new
    dsimp only
    rw [cdBlockSize]
    split_ifs <;> omega
  constructor
  · intro same
    have agree := same.lastLba
    rw [lastLba, ceilDiv_cdBlockSize] at agree
    omega
  · intro condition
    have fits : (new reader).lastLba + 1 < 2 ^ 32 := by
      rw [lastLba]
      omega
    rcases toc_of_fits fits with ⟨capacity, toc⟩
    refine ⟨?_, ?_, ?_, capacity, toc⟩
    · rw [lastLba, ceilDiv_cdBlockSize]
      omega
    · intro i inside
      rw [lastLba, cdBlockSize]
      omega
    · intro lba reported
      rw [lastLba] at reported
      rw [cdBlockSize]
      omega

theorem sameMedium_two_bytes : SameMedium 2 (new (⟨[7, 8]⟩ : FileReader)) :=
  (sameMedium_iff (⟨[7, 8]⟩ : FileReader) (by decide) (by decide)).mpr (.inl (by decide))

/-- One byte more than a block: the byte is in no block a host will read. -/
theorem not_sameMedium_partial_block :
    ¬ SameMedium 2049 (new (⟨List.replicate 2049 7⟩ : FileReader)) := by
  intro same
  have size : Reader.size (⟨List.replicate 2049 7⟩ : FileReader) = 2049 :=
    List.length_replicate ..
  have covered := same.covered 2048 (by decide)
  unfold new at covered
  rw [size] at covered
  exact absurd covered (by decide)

end Medium

end CDROMDevice

end Asmb8Ikvm.Iusb

import Asmb8Ikvm.Iusb.CacheInvariant
import Asmb8Ikvm.Iusb.Frame

/-!
# The virtual CD-ROM

`CDROMDevice` of `iusb.py`: the six SCSI commands, the response envelope and the
counters. The device reads its image through a `Reader`.

A request is answered with the envelope of the request followed by the data of
the command. The length of the data is stored in two fields of four bytes each,
and `to_bytes` raises when it does not fit; `Representable` says when it does.
-/

namespace Asmb8Ikvm.Iusb

open Bytes

universe u

def envOffDataLen : ℕ := 0

def envOffRespLen : ℕ := 25

def cdBlockSize : ℕ := 2048

def scsiTestUnitReady : UInt8 := 0x00

def scsiStartStopUnit : UInt8 := 0x1B

def scsiReadCapacity10 : UInt8 := 0x25

def scsiRead10 : UInt8 := 0x28

def scsiReadToc : UInt8 := 0x43

def scsiRead12 : UInt8 := 0xA8

def amiControlOpcodeMin : UInt8 := 0xF0

/-- `n.to_bytes(4, "little")`. -/
def toBytesLittle (n : ℕ) : Except Exn Bytes :=
  if n < 2 ^ 32 then .ok (le 4 n) else .error .overflowError

/-- `n.to_bytes(4, "big")`. -/
def toBytesBig (n : ℕ) : Except Exn Bytes :=
  if n < 2 ^ 32 then .ok (be 4 n) else .error .overflowError

structure CDROMDevice (ρ : Type u) where
  r : ρ
  lastLba : ℕ
  nBytes : ℕ
  nBlocks : ℕ

namespace CDROMDevice

/-- `bytes_served()` and `blocks_served()`. -/
def totals {ρ : Type u} (device : CDROMDevice ρ) : ℕ × ℕ :=
  (device.nBytes, device.nBlocks)

variable {ρ : Type u} [Reader ρ]

/-- `CDROMDevice(reader)`. -/
def new (reader : ρ) : CDROMDevice ρ where
  r := reader
  lastLba :=
    let n := Reader.size reader / cdBlockSize
    if 0 < n then n - 1 else 0
  nBytes := 0
  nBlocks := 0

/-- A length field of the response envelope, written when the response is long enough
to have it. -/
def storeLength (offset n : ℕ) (out : Bytes) : Except Exn Bytes :=
  if offset + 4 ≤ out.length then (toBytesLittle n).map (overwrite out offset) else .ok out

def buildResponse (req : Packet) (data : Bytes) : Except Exn Bytes := do
  let out := req.payload ++ data
  let out ← storeLength envOffDataLen data.length out
  storeLength envOffRespLen data.length out

def read (lba blocks : ℕ) (device : CDROMDevice ρ) : Except Exn Bytes × CDROMDevice ρ :=
  let n := blocks * cdBlockSize
  let off := lba * cdBlockSize
  match Reader.readAt n off device.r with
  | (.error exn, r) => (.error exn, { device with r })
  | (.ok data, r) =>
      (.ok (overwrite (List.replicate n 0) 0 data),
        { device with
          r
          nBytes := device.nBytes + data.length
          nBlocks := device.nBlocks + blocks })

def readCapacity (device : CDROMDevice ρ) : Except Exn Bytes := do
  return (← toBytesBig device.lastLba) ++ (← toBytesBig cdBlockSize)

/-- The track descriptor of `_read_toc`. -/
def track (no : UInt8) (lba : ℕ) : Except Exn Bytes := do
  return [0, 0x14, no, 0] ++ (← toBytesBig lba)

def readToc (cdb : Bytes) (device : CDROMDevice ρ) : Except Exn Bytes := do
  let body := (← track 1 0) ++ (← track 0xAA (device.lastLba + 1))
  let out := be 2 (body.length + 2) ++ [1, 1] ++ body
  let alloc := if 9 ≤ cdb.length then ofBE (slice cdb 7 2) else 0
  return if alloc ≠ 0 ∧ alloc < out.length then out.take alloc else out

/-- The command bodies of `CDROMDevice.handle`: the data-in bytes of a command block
that starts with the opcode `op`. -/
def dispatch (op : UInt8) (cdb : Bytes) (device : CDROMDevice ρ) :
    Except Exn Bytes × CDROMDevice ρ :=
  if op = scsiTestUnitReady then (.ok [], device)
  else if op = scsiStartStopUnit then (.ok [], device)
  else if op = scsiReadCapacity10 then (device.readCapacity, device)
  else if op = scsiRead10 then
    let lba := ofBE (slice cdb 2 4)
    let blocks := ofBE (slice cdb 7 2)
    device.read lba blocks
  else if op = scsiRead12 then
    let lba := ofBE (slice cdb 2 4)
    let blocks := ofBE (slice cdb 6 4)
    device.read lba blocks
  else if op = scsiReadToc then (device.readToc cdb, device)
  else if amiControlOpcodeMin ≤ op then (.ok [], device)
  else (.ok [], device)

/-- `CDROMDevice.handle`: the response payload, or none for a payload without opcode. -/
def handle (req : Packet) (device : CDROMDevice ρ) :
    Except Exn (Option Bytes) × CDROMDevice ρ :=
  match req.cdb with
  | [] => (.ok none, device)
  | op :: _ =>
      let (data, device) := device.dispatch op req.cdb
      ((data.bind (buildResponse req)).map some, device)

/-- The device after a sequence of requests, whatever they were answered with. -/
def serve (history : List Packet) (device : CDROMDevice ρ) : CDROMDevice ρ :=
  history.foldl (fun device req => (device.handle req).2) device

end CDROMDevice

/-- The `count` bytes of an image from `start` on, with zeros beyond its end. -/
def imageBytes (image : Bytes) (start count : ℕ) : Bytes :=
  (List.range count).map fun i => image.getD (start + i) 0

/-- `LBA` of a READ(10) or READ(12) request. -/
def Packet.lba (req : Packet) : ℕ :=
  ofBE (slice req.cdb 2 4)

/-- Transfer length in blocks of a READ(10) or READ(12) request. -/
def Packet.blocks (req : Packet) : ℕ :=
  if req.opcode = scsiRead10 then ofBE (slice req.cdb 7 2) else ofBE (slice req.cdb 6 4)

namespace Packet

theorem cdb_eq_nil {req : Packet} (short : req.payload.length ≤ opcodeOffset) :
    req.cdb = [] :=
  if_pos short

theorem cdb_eq_cons {req : Packet} (long : opcodeOffset < req.payload.length) :
    req.cdb = req.opcode :: req.payload.drop (opcodeOffset + 1) := by
  rw [cdb, opcode, if_neg (by omega), if_neg (by omega), List.drop_eq_getElem_cons long,
    List.getD_eq_getElem _ _ long]

end Packet

@[simp]
theorem length_imageBytes (image : Bytes) (start count : ℕ) :
    (imageBytes image start count).length = count := by
  simp [imageBytes]

theorem overwrite_zeros_slice (image : Bytes) (start count : ℕ) :
    overwrite (List.replicate count 0) 0 (slice image start count) =
      imageBytes image start count := by
  have length := length_slice image start count
  apply List.ext_getElem?
  intro i
  rw [overwrite, List.take_zero, List.nil_append, Nat.zero_add, List.drop_replicate,
    List.getElem?_append]
  by_cases wanted : i < count
  · have expected : (imageBytes image start count)[i]? = some (image.getD (start + i) 0) := by
      simp [imageBytes, wanted]
    rw [expected]
    by_cases present : start + i < image.length
    · rw [if_pos (by omega), slice, List.getElem?_take, if_pos wanted, List.getElem?_drop,
        List.getD_eq_getElem?_getD, List.getElem?_eq_getElem present, Option.getD_some]
    · rw [if_neg (by omega), List.getElem?_replicate, if_pos (by omega),
        List.getD_eq_default _ _ (by omega)]
  · rw [if_neg (by omega), List.getElem?_replicate, if_neg (by omega),
      List.getElem?_eq_none (by simpa using wanted)]

namespace CDROMDevice

section Response

variable {data : Bytes} {n : ℕ}

theorem storeLength_eq (offset : ℕ) (out : Bytes) (fits : n < 2 ^ 32) :
    ∃ later, storeLength offset n out = .ok later ∧ later.length = out.length ∧
      ∀ k, offset + 4 ≤ k → later.drop k = out.drop k := by
  rw [storeLength]
  by_cases room : offset + 4 ≤ out.length
  · rw [if_pos room, toBytesLittle, if_pos fits]
    refine ⟨_, rfl, length_overwrite (by simpa using room), ?_⟩
    intro k beyond
    exact drop_overwrite (by simpa using room) (by simpa using beyond)
  · rw [if_neg room]
    exact ⟨out, rfl, rfl, fun _ _ => rfl⟩

theorem buildResponse_eq (req : Packet) (fits : data.length < 2 ^ 32) :
    ∃ resp, buildResponse req data = .ok resp ∧
      resp.length = req.payload.length + data.length ∧
      (envOffRespLen + 4 ≤ req.payload.length → resp.drop req.payload.length = data) := by
  obtain ⟨first, firstStored, firstLength, firstDrop⟩ :=
    storeLength_eq envOffDataLen (req.payload ++ data) fits
  obtain ⟨second, secondStored, secondLength, secondDrop⟩ :=
    storeLength_eq envOffRespLen first fits
  refine ⟨second, ?_, ?_, ?_⟩
  · simp only [buildResponse, firstStored]
    exact secondStored
  · rw [secondLength, firstLength, List.length_append]
  · intro long
    rw [secondDrop _ long, firstDrop _ (le_trans (by decide) long), List.drop_left]

end Response

/-- The data of every command that is not a read of 4 GiB or more, on a medium whose
last block address fits its field, has a representable length. -/
structure Representable (lastLba : ℕ) (req : Packet) : Prop where
  capacity : req.opcode = scsiReadCapacity10 → lastLba < 2 ^ 32
  toc : req.opcode = scsiReadToc → lastLba + 1 < 2 ^ 32
  transfer : req.opcode = scsiRead12 → ofBE (slice req.cdb 6 4) * cdBlockSize < 2 ^ 32

section Spec

variable {ρ : Type u} {device : CDROMDevice ρ}

theorem readCapacity_eq (fits : device.lastLba < 2 ^ 32) :
    device.readCapacity = .ok (be 4 device.lastLba ++ be 4 cdBlockSize) := by
  simp only [readCapacity, toBytesBig, if_pos fits]
  rfl

theorem track_eq (no : UInt8) {lba : ℕ} (fits : lba < 2 ^ 32) :
    track no lba = .ok ([0, 0x14, no, 0] ++ be 4 lba) := by
  simp only [track, toBytesBig, if_pos fits]
  rfl

theorem readToc_eq (cdb : Bytes) (fits : device.lastLba + 1 < 2 ^ 32) :
    ∃ data, device.readToc cdb = .ok data ∧ data.length ≤ 20 := by
  simp only [readToc, track_eq 1 (show 0 < 2 ^ 32 by decide), track_eq 0xAA fits]
  refine ⟨_, rfl, ?_⟩
  generalize (if 9 ≤ cdb.length then ofBE (slice cdb 7 2) else 0) = alloc
  split
  · rw [List.length_take]
    refine (min_le_right _ _).trans ?_
    simp
  · simp

variable [Reader ρ]

theorem handle_of_short {req : Packet} (short : req.payload.length ≤ opcodeOffset) :
    device.handle req = (.ok none, device) := by
  rw [handle, req.cdb_eq_nil short]

theorem handle_of_long {req : Packet} (long : opcodeOffset < req.payload.length) :
    device.handle req =
      (((device.dispatch req.opcode req.cdb).1.bind (buildResponse req)).map some,
        (device.dispatch req.opcode req.cdb).2) := by
  unfold handle
  split
  case h_1 empty =>
    rw [req.cdb_eq_cons long] at empty
    cases empty
  case h_2 op rest starts =>
    rw [req.cdb_eq_cons long] at starts
    cases starts
    rfl

theorem totals_le_read (lba blocks : ℕ) : device.totals ≤ (device.read lba blocks).2.totals := by
  unfold read
  dsimp only
  split
  · exact le_refl device.totals
  · exact ⟨Nat.le_add_right _ _, Nat.le_add_right _ _⟩

theorem nBlocks_read {later : CDROMDevice ρ} {lba blocks : ℕ} {data : Bytes}
    (returned : device.read lba blocks = (.ok data, later)) :
    later.nBlocks = device.nBlocks + blocks := by
  unfold read at returned
  dsimp only at returned
  split at returned
  · cases returned
  · cases returned
    rfl

/-- The totals never decrease. -/
theorem totals_le_handle (req : Packet) : device.totals ≤ (device.handle req).2.totals := by
  unfold handle
  cases req.cdb with
  | nil => exact le_refl _
  | cons op rest =>
      dsimp only
      unfold dispatch
      split_ifs
      all_goals first | exact le_refl _ | exact totals_le_read _ _

variable [LawfulReader ρ]

/-- Nothing but the caches and counters of a device changes. -/
structure SameImage (device later : CDROMDevice ρ) : Prop where
  valid : LawfulReader.Valid later.r
  content : LawfulReader.content later.r = LawfulReader.content device.r
  lastLba : later.lastLba = device.lastLba

/-- `_read` returns the requested part of the image, zeros beyond its end. -/
theorem read_eq (valid : LawfulReader.Valid device.r) (lba blocks : ℕ) :
    ∃ later, device.read lba blocks =
        (.ok (imageBytes (LawfulReader.content device.r) (lba * cdBlockSize)
          (blocks * cdBlockSize)), later) ∧
      device.SameImage later := by
  obtain ⟨r, result, laterValid, content⟩ :=
    LawfulReader.readAt_eq (n := ((blocks * cdBlockSize : ℕ) : ℤ)) valid
      (Int.natCast_nonneg (lba * cdBlockSize))
  simp only [Int.toNat_natCast] at result
  simp only [read, result, overwrite_zeros_slice]
  exact ⟨_, rfl, laterValid, content, rfl⟩

/-- A command changes neither the image nor the capacity. -/
theorem dispatch_sameImage (valid : LawfulReader.Valid device.r) (op : UInt8) (cdb : Bytes) :
    device.SameImage (device.dispatch op cdb).2 := by
  have unchanged : device.SameImage device := ⟨valid, rfl, rfl⟩
  have afterRead (lba blocks : ℕ) : device.SameImage (device.read lba blocks).2 := by
    rcases read_eq valid lba blocks with ⟨later, result, same⟩
    rw [result]
    exact same
  unfold dispatch
  split_ifs
  all_goals first | exact unchanged | exact afterRead _ _

theorem dispatch_eq (valid : LawfulReader.Valid device.r) {req : Packet}
    (representable : Representable device.lastLba req) :
    ∃ data, (device.dispatch req.opcode req.cdb).1 = .ok data ∧ data.length < 2 ^ 32 := by
  have afterRead (lba blocks : ℕ) (fits : blocks * cdBlockSize < 2 ^ 32) :
      ∃ data, (device.read lba blocks).1 = .ok data ∧ data.length < 2 ^ 32 := by
    rcases read_eq valid lba blocks with ⟨later, result, -⟩
    rw [result]
    exact ⟨_, rfl, by rw [length_imageBytes]; exact fits⟩
  unfold dispatch
  split_ifs with unitReady startStop capacity read10 read12 toc control
  case pos => exact ⟨[], rfl, by decide⟩
  case pos => exact ⟨[], rfl, by decide⟩
  case pos =>
    rw [readCapacity_eq (representable.capacity capacity)]
    exact ⟨_, rfl, by simp⟩
  case pos =>
    have below := ofBE_lt (slice req.cdb 7 2)
    have width : (slice req.cdb 7 2).length ≤ 2 := by
      rw [length_slice]
      exact min_le_left _ _
    have bound : 256 ^ (slice req.cdb 7 2).length ≤ 256 ^ 2 :=
      Nat.pow_le_pow_right (by decide) width
    refine afterRead _ _ ?_
    rw [cdBlockSize]
    omega
  case pos => exact afterRead _ _ (representable.transfer read12)
  case pos =>
    rcases readToc_eq req.cdb (representable.toc toc) with ⟨data, result, length⟩
    exact ⟨data, result, by omega⟩
  case pos => exact ⟨[], rfl, by decide⟩
  case neg => exact ⟨[], rfl, by decide⟩

theorem handle_sameImage (valid : LawfulReader.Valid device.r) (req : Packet) :
    device.SameImage (device.handle req).2 := by
  by_cases long : opcodeOffset < req.payload.length
  · rw [handle_of_long long]
    exact dispatch_sameImage valid _ _
  · rw [handle_of_short (by omega)]
    exact ⟨valid, rfl, rfl⟩

/-- A representable request is answered exactly when its payload has an opcode. -/
theorem handle_eq (valid : LawfulReader.Valid device.r) {req : Packet}
    (representable : Representable device.lastLba req) :
    ∃ answer, (device.handle req).1 = .ok answer ∧
      (answer.isSome ↔ opcodeOffset < req.payload.length) := by
  by_cases long : opcodeOffset < req.payload.length
  · rcases dispatch_eq valid representable with ⟨data, result, fits⟩
    rcases buildResponse_eq req fits with ⟨resp, built, -, -⟩
    rw [handle_of_long long, result]
    refine ⟨some resp, ?_, by simpa using long⟩
    simp only [Except.bind, built]
    rfl
  · rw [handle_of_short (by omega)]
    exact ⟨none, rfl, by simpa using long⟩

theorem serve_sameImage (valid : LawfulReader.Valid device.r) (history : List Packet) :
    device.SameImage (device.serve history) := by
  induction history generalizing device with
  | nil => exact ⟨valid, rfl, rfl⟩
  | cons req history ih =>
      have first := handle_sameImage valid req
      have rest := ih first.valid
      exact ⟨rest.valid, rest.content.trans first.content, rest.lastLba.trans first.lastLba⟩

omit [LawfulReader ρ] in
theorem dispatch_read {req : Packet}
    (isRead : req.opcode = scsiRead10 ∨ req.opcode = scsiRead12) :
    device.dispatch req.opcode req.cdb = device.read req.lba req.blocks := by
  rcases isRead with read10 | read12
  · simp only [dispatch, Packet.lba, Packet.blocks, read10]
    rfl
  · simp only [dispatch, Packet.lba, Packet.blocks, read12]
    rfl

/-- A read request is answered with its envelope and the requested part of the image. -/
theorem handle_read (valid : LawfulReader.Valid device.r) {req : Packet}
    (isRead : req.opcode = scsiRead10 ∨ req.opcode = scsiRead12)
    (long : envOffRespLen + 4 ≤ req.payload.length) (fits : req.blocks * cdBlockSize < 2 ^ 32) :
    ∃ resp, (device.handle req).1 = .ok (some resp) ∧
      resp.length = req.payload.length + req.blocks * cdBlockSize ∧
      resp.drop req.payload.length =
        imageBytes (LawfulReader.content device.r) (req.lba * cdBlockSize)
          (req.blocks * cdBlockSize) := by
  rcases read_eq valid req.lba req.blocks with ⟨later, result, -⟩
  have representable : (imageBytes (LawfulReader.content device.r) (req.lba * cdBlockSize)
      (req.blocks * cdBlockSize)).length < 2 ^ 32 := by
    rw [length_imageBytes]
    exact fits
  rcases buildResponse_eq req representable with ⟨resp, built, length, data⟩
  rw [length_imageBytes] at length
  rw [handle_of_long (lt_of_lt_of_le (by decide) long), dispatch_read isRead, result]
  refine ⟨resp, ?_, length, data long⟩
  simp only [Except.bind, built]
  rfl

end Spec

/-- Through any cache in front of the image file and after any sequence of requests, a
read returns the bytes of the image, zeros beyond its end. -/
theorem handle_read_image (image : Bytes) (writer : Option (Writer FileReader))
    {windowSize : ℕ} (maxWindows : ℕ) (history : List Packet) {req : Packet}
    (positive : 1 ≤ windowSize)
    (isRead : req.opcode = scsiRead10 ∨ req.opcode = scsiRead12)
    (long : 29 ≤ req.payload.length) (fits : req.blocks * 2048 < 2 ^ 32) :
    ∃ resp,
      (((new (Cache.new (⟨image⟩ : FileReader) writer windowSize maxWindows)).serve
        history).handle req).1 = .ok (some resp) ∧
      resp.length = req.payload.length + req.blocks * 2048 ∧
      resp.drop req.payload.length =
        imageBytes image (req.lba * 2048) (req.blocks * 2048) := by
  have valid : LawfulReader.Valid
      (new (Cache.new (⟨image⟩ : FileReader) writer windowSize maxWindows)).r :=
    Cache.new_valid writer maxWindows positive trivial
  have same := serve_sameImage valid history
  rcases handle_read same.valid isRead long fits with ⟨resp, answered, length, data⟩
  rw [same.content] at data
  exact ⟨resp, answered, length, data⟩

/-- READ(10) of the first block. -/
def readFirstBlock : Packet where
  header := { dataPacketLen := 29 }
  payload := List.replicate 9 0 ++ [0x28, 0, 0, 0, 0, 0, 0, 0, 1] ++ List.replicate 11 0

/-- The first block of a two-byte image, read for the second time. -/
theorem handle_read_image_two_bytes :
    ∃ resp,
      (((new (Cache.new (⟨[7, 8]⟩ : FileReader) none 1 1)).serve [readFirstBlock]).handle
        readFirstBlock).1 = .ok (some resp) ∧
      resp.length = 29 + 1 * 2048 ∧
      resp.drop 29 = imageBytes [7, 8] 0 (1 * 2048) :=
  handle_read_image [7, 8] none 1 [readFirstBlock] (by decide) (.inl (by decide)) (by decide)
    (by decide)

end CDROMDevice

end Asmb8Ikvm.Iusb

import Asmb8Ikvm.Ivtp.Channel

/-!
# Video frames in fragments

A sender splits a frame into fragments, numbers them from zero, marks the last
one and wraps each as a VIDEO_FRAGMENT packet; other packets may stand between
them. `capture_one_frame` is to put the frame together again.

It does so when every packet passes the size check of `read_packet`. That check
is made on the body of the packet, which has the two bytes of the fragment
number next to the data, with the bound that is meant for the frame.
-/

namespace Asmb8Ikvm.Ivtp

open Bytes ByteStream

/-- A packet as a peer sends it. -/
structure WirePacket where
  type : UInt16
  status : UInt16 := 0
  body : Bytes
deriving DecidableEq, Repr

namespace WirePacket

/-- The header of the packet. -/
def header (packet : WirePacket) : Header where
  type := packet.type.toNat
  pktSize := packet.body.length
  status := packet.status.toNat

/-- The bytes of the packet. -/
def bytes (packet : WirePacket) : Bytes :=
  packet.header.marshal ++ packet.body

/-- A packet `capture_one_frame` is to pass over. -/
structure IsControl (packet : WirePacket) : Prop where
  notFragment : (packet.type.toNat : ℤ) ≠ opVideoFragment
  notStop : (packet.type.toNat : ℤ) ≠ opStopSessionImmediate
  fits : packet.body.length ≤ maxFrameBytes

theorem ofBytes_marshal_header {packet : WirePacket} (small : packet.body.length < 2 ^ 32) :
    Header.ofBytes packet.header.marshal = packet.header := by
  have type := packet.type.toNat_lt
  have status := packet.status.toNat_lt
  rw [Header.ofBytes_marshal]
  simp only [Header.reduced, header, Header.mk.injEq]
  refine ⟨?_, ?_, ?_⟩ <;> omega

theorem bodyLen_header {packet : WirePacket} (small : packet.body.length < 2 ^ 32) :
    packetFormat.bodyLen packet.header.marshal =
      if maxFrameBytes < packet.body.length then
        .error (protocolError
          ("ivtp: implausible pkt_size " ++ toString packet.header.pktSize ++
            " in a received header (type=" ++ toString packet.header.type ++ ")")
          "ivtp.read_packet")
      else .ok packet.body.length := by
  have implausible : ((maxFrameBytes : ℕ) : ℤ) < packet.header.pktSize ↔
      maxFrameBytes < packet.body.length := Int.ofNat_lt
  simp only [packetFormat, Header.parse_of_length (Header.length_marshal _),
    ofBytes_marshal_header small, implausible]
  rfl

/-- A packet within the bound is read as sent. -/
theorem reads {packet : WirePacket} (fits : packet.body.length ≤ maxFrameBytes)
    (rest : List Item) :
    ReadsPacket packetFormat (bytesItems packet.bytes ++ rest)
      (.ok (packet.header.marshal, packet.body)) rest := by
  refine .whole (Header.length_marshal _) ?_
  rw [bodyLen_header (by simp only [maxFrameBytes] at fits; omega), if_neg (by omega)]

theorem refused {packet : WirePacket} (tooLong : maxFrameBytes < packet.body.length)
    (small : packet.body.length < 2 ^ 32) (rest : List Item) :
    ∃ fault rest', ReadsPacket packetFormat (bytesItems packet.bytes ++ rest)
      (.error fault) rest' := by
  have refuses := bodyLen_header small
  rw [if_pos tooLong] at refuses
  rw [bytes, bytesItems_append, List.append_assoc]
  exact ⟨_, _, .refused (Header.length_marshal _) refuses⟩

end WirePacket

/-- The data of a fragment, with the status its packet is sent with. -/
structure Fragment where
  status : UInt16 := 0
  data : Bytes
deriving DecidableEq, Repr

/-- The VIDEO_FRAGMENT packet of a fragment. -/
def Fragment.packet (fragNum : ℕ) (fragment : Fragment) : WirePacket where
  type := 25
  status := fragment.status
  body := le 2 fragNum ++ fragment.data

theorem Fragment.length_body (fragNum : ℕ) (fragment : Fragment) :
    (fragment.packet fragNum).body.length = fragment.data.length + 2 := by
  rw [Fragment.packet, List.length_append, length_le, Nat.add_comm]

/-- The packets of the fragments of a frame, numbered from `i` on; the number of the last
one carries the last-fragment bit. -/
def numbered (i : ℕ) : List Fragment → List WirePacket
  | [] => []
  | [fragment] => [fragment.packet (i ||| fragLastBit)]
  | fragment :: next :: fragments => fragment.packet i :: numbered (i + 1) (next :: fragments)

/-- The frame that has been split. -/
def frameBytes (fragments : List Fragment) : Bytes :=
  fragments.flatMap Fragment.data

/-- The packets of a frame in order, with control packets anywhere between them. -/
inductive Interleaved : List WirePacket → List WirePacket → Prop where
  | nil : Interleaved [] []
  | fragment {packet : WirePacket} {fragments packets : List WirePacket}
      (rest : Interleaved fragments packets) :
      Interleaved (packet :: fragments) (packet :: packets)
  | control {packet : WirePacket} {fragments packets : List WirePacket}
      (isControl : packet.IsControl) (rest : Interleaved fragments packets) :
      Interleaved fragments (packet :: packets)

section FragmentNumbers

variable {i : ℕ}

theorem and_fragNumMask (within : i < fragLastBit) : i &&& fragNumMask = i := by
  have mod : i &&& (2 ^ 15 - 1) = i % 2 ^ 15 := Nat.and_two_pow_sub_one_eq_mod i 15
  exact mod.trans (Nat.mod_eq_of_lt within)

theorem and_fragLastBit (within : i < fragLastBit) : i &&& fragLastBit = 0 := by
  have bit : i &&& 2 ^ 15 = (i.testBit 15).toNat * 2 ^ 15 := Nat.and_two_pow i 15
  rw [Nat.testBit_lt_two_pow within] at bit
  exact bit.trans (Nat.zero_mul _)

theorem isFirst_eq (within : i < fragLastBit) : isFirst i = (i == 0) := by
  rw [isFirst, and_fragNumMask within]

theorem isFirst_last (within : i < fragLastBit) : isFirst (i ||| fragLastBit) = (i == 0) := by
  rw [isFirst, Nat.and_or_distrib_right, and_fragNumMask within,
    show fragLastBit &&& fragNumMask = 0 by decide, Nat.or_zero]

theorem isLast_eq (within : i < fragLastBit) : isLast i = false := by
  rw [isLast, and_fragLastBit within]
  rfl

theorem isLast_last (within : i < fragLastBit) : isLast (i ||| fragLastBit) = true := by
  rw [isLast, Nat.and_or_distrib_right, and_fragLastBit within, Nat.zero_or]
  decide

end FragmentNumbers

/-- What has been collected of a frame before fragment `i` of it. -/
def FrameReassembler.collected (i : ℕ) (reassembler : FrameReassembler) : Bytes :=
  if i = 0 then [] else reassembler.buf

theorem FrameReassembler.feed_eq {fragNum i : ℕ} {data : Bytes} {reassembler : FrameReassembler}
    (first : isFirst fragNum = (i == 0))
    (small : (reassembler.collected i).length + data.length ≤ maxFrameBytes) :
    reassembler.feed fragNum data =
      if isLast fragNum then (.ok (some (reassembler.collected i ++ data)), {})
      else (.ok none, { buf := reassembler.collected i ++ data }) := by
  have buf : (if isFirst fragNum then [] else reassembler.buf) = reassembler.collected i := by
    simp [first, collected]
  simp only [feed, buf]
  rw [if_neg (by omega)]

theorem parseVideoFragment_packet {fragNum : ℕ} (within : fragNum < 2 ^ 16)
    (fragment : Fragment) :
    parseVideoFragment (fragment.packet fragNum).body =
      .ok {
        fragNum
        first := isFirst fragNum
        last := isLast fragNum
        data := fragment.data } := by
  have number : ofLE (slice (fragment.packet fragNum).body 0 2) = fragNum := by
    have front : slice (fragment.packet fragNum).body 0 2 = le 2 fragNum := by
      simp [slice, Fragment.packet]
    rw [front, ofLE_le]
    omega
  have data : (fragment.packet fragNum).body.drop 2 = fragment.data := by
    simp [Fragment.packet]
  have long : ¬ (fragment.packet fragNum).body.length < 2 := by
    rw [fragment.length_body]
    omega
  simp only [parseVideoFragment, if_neg long, number, data]

theorem awaitFrame_packet {fragNum : ℕ} (within : fragNum < 2 ^ 16) (fragment : Fragment)
    (reassembler : FrameReassembler) :
    awaitFrame reassembler (fragment.packet fragNum).header (fragment.packet fragNum).body =
      match reassembler.feed fragNum fragment.data with
      | (.error exn, _) => .finish (.error exn)
      | (.ok (some frame), _) => .finish (.ok frame)
      | (.ok none, reassembler) => .wait reassembler := by
  have type : (fragment.packet fragNum).header.type = opVideoFragment := rfl
  have parsed := parseVideoFragment_packet within fragment
  rw [awaitFrame, if_pos type]
  generalize parseVideoFragment (fragment.packet fragNum).body = outcome at parsed ⊢
  subst parsed
  rfl

theorem awaitFrame_control {packet : WirePacket} (control : packet.IsControl)
    (reassembler : FrameReassembler) :
    awaitFrame reassembler packet.header packet.body = .wait reassembler := by
  have notFragment : packet.header.type ≠ opVideoFragment := control.notFragment
  have notStop : packet.header.type ≠ opStopSessionImmediate := control.notStop
  rw [awaitFrame, if_neg notFragment, if_neg notStop]

section Capture

variable {transport : SocketTransport} (reassembler : FrameReassembler) {fragment : Fragment}
  {fragNum i : ℕ} {rest : List Item}

theorem waitFor_oversized (tooLong : maxFrameBytes < fragment.data.length + 2)
    (small : fragment.data.length ≤ maxFrameBytes)
    (front : transport.sock.items = bytesItems (fragment.packet fragNum).bytes ++ rest) :
    ∃ exn, (waitFor awaitFrame reassembler transport).1 = .error exn := by
  have length := fragment.length_body fragNum
  have bounded : (fragment.packet fragNum).body.length < 2 ^ 32 := by
    simp only [maxFrameBytes] at small
    omega
  rcases WirePacket.refused (length ▸ tooLong) bounded rest with ⟨fault, rest', reads⟩
  exact ⟨_, waitFor_error front reads⟩

theorem reads_packet (fits : fragment.data.length + 2 ≤ maxFrameBytes)
    (front : transport.sock.items = bytesItems (fragment.packet fragNum).bytes ++ rest) :
    ReadsPacket packetFormat transport.sock.items
        (.ok ((fragment.packet fragNum).header.marshal, (fragment.packet fragNum).body)) rest ∧
      Header.ofBytes (fragment.packet fragNum).header.marshal =
        (fragment.packet fragNum).header := by
  have length := fragment.length_body fragNum
  rw [front]
  refine ⟨WirePacket.reads (length ▸ fits) rest, WirePacket.ofBytes_marshal_header ?_⟩
  simp only [maxFrameBytes] at fits
  omega

theorem waitFor_last (within : i < fragLastBit) (fits : fragment.data.length + 2 ≤ maxFrameBytes)
    (small : (reassembler.collected i).length + fragment.data.length ≤ maxFrameBytes)
    (front : transport.sock.items =
      bytesItems (fragment.packet (i ||| fragLastBit)).bytes ++ rest) :
    (waitFor awaitFrame reassembler transport).1 =
      .ok (reassembler.collected i ++ fragment.data) := by
  rcases reads_packet fits front with ⟨reads, parsed⟩
  have number : i ||| fragLastBit < 2 ^ 16 :=
    Nat.or_lt_two_pow (lt_trans within (by decide)) (by decide)
  refine waitFor_finish reads ?_
  rw [parsed, awaitFrame_packet number, FrameReassembler.feed_eq (isFirst_last within) small,
    if_pos (isLast_last within)]

theorem waitFor_collect (within : i < fragLastBit)
    (fits : fragment.data.length + 2 ≤ maxFrameBytes)
    (small : (reassembler.collected i).length + fragment.data.length ≤ maxFrameBytes)
    (front : transport.sock.items = bytesItems (fragment.packet i).bytes ++ rest) :
    ∃ later : SocketTransport, later.sock.items = rest ∧
      waitFor awaitFrame reassembler transport =
        waitFor awaitFrame { buf := reassembler.collected i ++ fragment.data } later := by
  rcases reads_packet fits front with ⟨reads, parsed⟩
  have number : i < 2 ^ 16 := lt_trans within (by decide)
  refine waitFor_wait reads ?_
  rw [parsed, awaitFrame_packet number, FrameReassembler.feed_eq (isFirst_eq within) small]
  simp [isLast_eq within]

theorem waitFor_control {packet : WirePacket} (isControl : packet.IsControl)
    (front : transport.sock.items = bytesItems packet.bytes ++ rest) :
    ∃ later : SocketTransport, later.sock.items = rest ∧
      waitFor awaitFrame reassembler transport = waitFor awaitFrame reassembler later := by
  have small : packet.body.length < 2 ^ 32 := lt_of_le_of_lt isControl.fits (by decide)
  have reads := WirePacket.reads isControl.fits rest
  rw [← front] at reads
  refine waitFor_wait reads ?_
  rw [WirePacket.ofBytes_marshal_header small, awaitFrame_control isControl]

/-- The packets of the fragments from number `i` on complete the frame exactly when none
of them is above the bound. -/
theorem waitFor_fragments_iff {fragments : List Fragment} {wires packets : List WirePacket}
    (interleaved : Interleaved wires packets) (numbers : numbered i fragments = wires)
    (nonempty : fragments ≠ []) (count : i + fragments.length ≤ fragLastBit)
    (small : (reassembler.collected i).length + (frameBytes fragments).length ≤ maxFrameBytes)
    (front : transport.sock.items = bytesItems (packets.flatMap WirePacket.bytes) ++ rest) :
    (waitFor awaitFrame reassembler transport).1 =
        .ok (reassembler.collected i ++ frameBytes fragments) ↔
      ∀ fragment ∈ fragments, fragment.data.length + 2 ≤ maxFrameBytes := by
  induction interleaved generalizing i fragments reassembler transport with
  | nil =>
      rcases fragments with _ | ⟨fragment, _ | ⟨next, fragments⟩⟩
      · exact absurd rfl nonempty
      · cases numbers
      · cases numbers
  | control isControl _ ih =>
      rw [List.flatMap_cons, bytesItems_append, List.append_assoc] at front
      rcases waitFor_control reassembler isControl front with ⟨later, left, same⟩
      rw [same]
      exact ih reassembler numbers nonempty count small left
  | fragment interleaved ih =>
      rw [List.flatMap_cons, bytesItems_append, List.append_assoc] at front
      rcases fragments with _ | ⟨fragment, fragments⟩
      · exact absurd rfl nonempty
      simp only [frameBytes, List.flatMap_cons, List.length_append, List.length_cons,
        List.forall_mem_cons] at small count ⊢
      have within : i < fragLastBit := by omega
      rcases fragments with _ | ⟨next, fragments⟩
      · cases numbers
        by_cases fits : fragment.data.length + 2 ≤ maxFrameBytes
        · rw [waitFor_last reassembler within fits (by omega) front]
          simp [fits]
        · obtain ⟨exn, failed⟩ :=
            waitFor_oversized reassembler (Nat.lt_of_not_le fits) (by omega) front
          rw [failed]
          simp [fits]
      · cases numbers
        by_cases fits : fragment.data.length + 2 ≤ maxFrameBytes
        · obtain ⟨later, left, same⟩ :=
            waitFor_collect reassembler within fits (by omega) front
          have collected : ({ buf := reassembler.collected i ++ fragment.data } :
              FrameReassembler).collected (i + 1) = reassembler.collected i ++ fragment.data := rfl
          have following := ih { buf := reassembler.collected i ++ fragment.data } rfl
            (List.cons_ne_nil _ _)
            (by simp only [List.length_cons] at count ⊢; omega)
            (by rw [collected, List.length_append]; unfold frameBytes; omega) left
          rw [collected, List.append_assoc, frameBytes, List.forall_mem_cons] at following
          rw [same, following]
          simp [fits]
        · obtain ⟨exn, failed⟩ :=
            waitFor_oversized reassembler (Nat.lt_of_not_le fits) (by omega) front
          rw [failed]
          simp [fits]

end Capture

theorem captureOneFrame_fst_eq (requestRefresh : Bool) (transport : SocketTransport) :
    (∃ later : SocketTransport, later.sock.items = transport.sock.items ∧
      (requestRefresh = true → transport.sock.CanSend) ∧
      (captureOneFrame requestRefresh transport).1 = (waitFor awaitFrame {} later).1) ∨
    (¬ (requestRefresh = true → transport.sock.CanSend) ∧
      ∃ exn, (captureOneFrame requestRefresh transport).1 = .error exn) := by
  unfold captureOneFrame
  cases requestRefresh with
  | false => exact .inl ⟨transport, rfl, by simp, rfl⟩
  | true =>
      simp only [if_true]
      rcases transport.writePacket_cases buildRefreshVideoScreen with
        ⟨cannotSend, error, later, written⟩ | ⟨canSend, written⟩
      · rw [written]
        exact .inr ⟨by simpa using cannotSend, _, rfl⟩
      · rw [written]
        refine .inl ⟨_, ?_, fun _ => canSend, rfl⟩
        rfl

/-- The capture of a frame that arrives in fragments returns the frame exactly when the
refresh can be sent, if requested, and every fragment leaves room for its number under
the bound of `read_packet`. -/
theorem captureOneFrame_frame_iff {transport : SocketTransport} {requestRefresh : Bool}
    {fragments : List Fragment} {packets : List WirePacket} {rest : List Item}
    (nonempty : fragments ≠ []) (count : fragments.length ≤ 32768)
    (small : (frameBytes fragments).length ≤ maxFrameBytes)
    (interleaved : Interleaved (numbered 0 fragments) packets)
    (front : transport.sock.items = bytesItems (packets.flatMap WirePacket.bytes) ++ rest) :
    (captureOneFrame requestRefresh transport).1 = .ok (frameBytes fragments) ↔
      (requestRefresh = true → transport.sock.CanSend) ∧
        ∀ fragment ∈ fragments, fragment.data.length + 2 ≤ maxFrameBytes := by
  rcases captureOneFrame_fst_eq requestRefresh transport with
    ⟨later, items, canSend, same⟩ | ⟨cannotSend, exn, failed⟩
  · have whole := waitFor_fragments_iff {} interleaved rfl nonempty
      (by simpa [fragLastBit] using count)
      (by simpa [FrameReassembler.collected] using small) (items.trans front)
    rw [same, and_iff_right canSend]
    simpa [FrameReassembler.collected] using whole
  · rw [failed]
    simp [cannotSend]

/-- A connection on which the packets arrive at once and the peer then closes. -/
def delivering (packets : List WirePacket) : SocketTransport where
  sock := { inbound := leftover (packets.flatMap WirePacket.bytes) [] }

theorem items_delivering (packets : List WirePacket) :
    (delivering packets).sock.items = bytesItems (packets.flatMap WirePacket.bytes) ++ [] :=
  items_leftover _ _

/-- A frame in two fragments, with a control packet between them. -/
theorem captureOneFrame_two_fragments :
    (captureOneFrame true (delivering [{ type := 25, body := [0, 0, 7] },
      { type := 24, body := [1] }, { type := 25, body := [1, 128, 8, 9] }])).1 =
      .ok [7, 8, 9] := by
  have interleaved : Interleaved (numbered 0 [{ data := [7] }, { data := [8, 9] }])
      [{ type := 25, body := [0, 0, 7] }, { type := 24, body := [1] },
        { type := 25, body := [1, 128, 8, 9] }] :=
    .fragment (.control ⟨by decide, by decide, by decide⟩ (.fragment .nil))
  exact (captureOneFrame_frame_iff (by decide) (by decide) (by decide) interleaved
    (items_delivering _)).mpr ⟨fun _ => rfl, by decide⟩

/-- A frame of the greatest length in a single fragment is refused. -/
theorem captureOneFrame_greatest_frame :
    (frameBytes [{ data := List.replicate maxFrameBytes 0 }]).length ≤ maxFrameBytes ∧
    (captureOneFrame true
      (delivering (numbered 0 [{ data := List.replicate maxFrameBytes 0 }]))).1 ≠
        .ok (frameBytes [{ data := List.replicate maxFrameBytes 0 }]) := by
  generalize frame : List.replicate maxFrameBytes (0 : UInt8) = data
  have length : data.length = maxFrameBytes := by
    rw [← frame, List.length_replicate]
  refine ⟨by simp [frameBytes, length], ?_⟩
  rcases captureOneFrame_fst_eq true (delivering (numbered 0 [{ data }])) with
    ⟨later, items, -, same⟩ | ⟨-, exn, failed⟩
  · have front : later.sock.items =
        bytesItems (({ data } : Fragment).packet (0 ||| fragLastBit)).bytes ++ [] := by
      simpa [numbered] using items.trans (items_delivering _)
    obtain ⟨exn, failed⟩ := waitFor_oversized {}
      (by rw [length]; exact Nat.lt_add_of_pos_right (by decide)) length.le front
    rw [same, failed]
    simp
  · rw [failed]
    simp

end Asmb8Ikvm.Ivtp

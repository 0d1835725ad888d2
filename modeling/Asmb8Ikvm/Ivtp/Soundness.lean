import Asmb8Ikvm.Ivtp.Handshake

/-!
# Frames that are whole

What `capture_one_frame` returns for an arbitrary sequence of packets. The
reassembler drops what it has at a fragment with number 0 and returns what it has
at a fragment with the last bit; it never compares a number with the one before.
So the bytes it returns are a frame exactly when the numbers since the last 0
have been counting up, and a stream that is entered in the middle of a frame, or
loses a fragment, yields bytes that are not.

Every stream of items is a sequence of packets followed by something that is not
a packet.
-/

namespace Asmb8Ikvm.Ivtp

open Bytes ByteStream

/-- The number of a fragment: the low 15 bits. -/
def VideoFragment.number (fragment : VideoFragment) : ℕ :=
  fragment.fragNum &&& fragNumMask

/-- The VIDEO_FRAGMENT packets that are received: up to the first one with the last bit, or to
a packet that ends the capture. -/
def receivedFragments : List WirePacket → List VideoFragment
  | [] => []
  | packet :: later =>
      if packet.type = 25 then
        match parseVideoFragment packet.body with
        | .error _ => []
        | .ok fragment =>
            fragment :: if isLast fragment.fragNum then [] else receivedFragments later
      else if packet.type = 8 then []
      else receivedFragments later

/-- The fragments are numbered from 0 on without gap or repeat, only the last one has the last
bit, and the bytes are their data. -/
structure IsFrame (run : List VideoFragment) (frame : Bytes) : Prop where
  numbers : run.map VideoFragment.number = List.range run.length
  onlyLast : ∃ front last, run = front ++ [last] ∧ isLast last.fragNum = true ∧
    ∀ fragment ∈ front, isLast fragment.fragNum = false
  joined : frame = run.flatMap VideoFragment.data

/-- What is returned is a frame, whose fragments were received one after the other. -/
def CapturesFrames (requestRefresh : Bool) (transport : SocketTransport)
    (packets : List WirePacket) : Prop :=
  ∀ frame, (captureOneFrame requestRefresh transport).1 = .ok frame →
    ∃ run, run <:+: receivedFragments packets ∧ IsFrame run frame

/-- The fragments count up from the last 0 to the first one with the last bit, unless too much
is collected before: `next` is the number to come, if the numbers have been counting up,
and `size` bytes have been collected. -/
def countsUp : Option ℕ → ℕ → List VideoFragment → Bool
  | _, _, [] => true
  | next, size, fragment :: later =>
      let next := if isFirst fragment.fragNum then some 0 else next
      let size := (if isFirst fragment.fragNum then 0 else size) + fragment.data.length
      if maxFrameBytes < size then true
      else if isLast fragment.fragNum then next == some fragment.number
      else
        countsUp (if next = some fragment.number then some (fragment.number + 1) else none) size
          later

/-- What the reassembler makes of the fragments, starting with some bytes. -/
def joinedFrame : Bytes → List VideoFragment → Option Bytes
  | _, [] => none
  | buf, fragment :: later =>
      let buf := if isFirst fragment.fragNum then [] else buf
      if maxFrameBytes < buf.length + fragment.data.length then none
      else if isLast fragment.fragNum then some (buf ++ fragment.data)
      else joinedFrame (buf ++ fragment.data) later

section Streams

theorem Header.marshal_ofBytes {data : Bytes} (length : data.length = headerLen) :
    (Header.ofBytes data).marshal = data := by
  have field (start width : ℕ) (within : start + width ≤ data.length) :
      le width ((ofLE (slice data start width) : ℤ) % 2 ^ (8 * width)).toNat =
        slice data start width := by
    have size : (slice data start width).length = width := by
      rw [length_slice]
      omega
    have below := ofLE_lt (slice data start width)
    have reencoded := le_ofLE (slice data start width)
    rw [size] at below reencoded
    have value : ((ofLE (slice data start width) : ℤ) % 2 ^ (8 * width)).toNat =
        ofLE (slice data start width) := by
      have power : (256 : ℕ) ^ width = 2 ^ (8 * width) := by
        rw [Nat.pow_mul]
      rw [power] at below
      rw [Int.emod_eq_of_lt (by omega) (by exact_mod_cast below), Int.toNat_natCast]
    rw [value, reencoded]
  have offset : headerLen = 8 := rfl
  have type := field 0 2 (by omega)
  have pktSize := field 2 4 (by omega)
  have status := field 6 2 (by omega)
  rw [marshal, ofBytes, type, pktSize, status, slice_append_slice data 0 2 4,
    slice_append_slice data 0 6 2, slice, List.drop_zero, List.take_of_length_le (by omega)]

/-- A header that is not refused is the one of a packet with its body. -/
theorem exists_packet {header body : Bytes} (length : header.length = headerLen)
    (announced : packetFormat.bodyLen header = .ok body.length) :
    ∃ packet : WirePacket, packet.bytes = header ++ body ∧ packet.body.length ≤ maxFrameBytes := by
  have type : ofLE (slice header 0 2) < 2 ^ 16 := by
    simpa [length, headerLen] using ofLE_lt (slice header 0 2)
  have status : ofLE (slice header 6 2) < 2 ^ 16 := by
    simpa [length, headerLen] using ofLE_lt (slice header 6 2)
  simp only [packetFormat, Header.parse_of_length length] at announced
  split_ifs at announced with implausible
  have size : (Header.ofBytes header).pktSize = body.length := by
    have nonneg : 0 ≤ (Header.ofBytes header).pktSize := Int.natCast_nonneg _
    have value : (Header.ofBytes header).pktSize.toNat = body.length := by
      injection announced
    omega
  refine ⟨{ type := .ofNat (ofLE (slice header 0 2))
            status := .ofNat (ofLE (slice header 6 2))
            body }, ?_, ?_⟩
  · have same : WirePacket.header { type := .ofNat (ofLE (slice header 0 2))
                                    status := .ofNat (ofLE (slice header 6 2))
                                    body } = Header.ofBytes header := by
      simp only [WirePacket.header, UInt16.toNat_ofNat', ← size]
      rw [Nat.mod_eq_of_lt (by omega), Nat.mod_eq_of_lt (by omega)]
      rfl
    rw [WirePacket.bytes, same, Header.marshal_ofBytes length]
  · rw [size] at implausible
    simpa using implausible

/-- What arrives on a connection is a sequence of packets and something that is not one. -/
theorem exists_packets (sock : Sock) :
    ∃ packets : List WirePacket, ∃ rest : List Item,
      (∀ packet ∈ packets, packet.body.length ≤ maxFrameBytes) ∧ RunsOut rest ∧
        sock.items = bytesItems (packets.flatMap WirePacket.bytes) ++ rest := by
  induction size : sock.items.length using Nat.strong_induction_on generalizing sock with
  | _ size' ih =>
      rcases sock.readPacket_spec packetFormat with ⟨reads, -⟩
      generalize (sock.readPacket packetFormat).1 = result at reads
      generalize later : (sock.readPacket packetFormat).2 = left at reads
      rcases result with fault | ⟨header, body⟩
      · exact ⟨[], sock.items, by simp, ⟨fault, _, reads⟩, rfl⟩
      · have shorter : left.items.length < size' := by
          rw [← size]
          rcases reads.length_lt (by decide) with shorter | ⟨got, closed⟩
          · exact shorter
          · cases closed
        rcases ih _ shorter left rfl with ⟨packets, rest, bounded, runsOut, items⟩
        generalize left.items = unread at reads items
        generalize sock.items = whole at reads
        cases reads with
        | whole length announced =>
            rcases exists_packet length announced with ⟨packet, bytes, fits⟩
            refine ⟨packet :: packets, rest, ?_, runsOut, ?_⟩
            · rw [List.forall_mem_cons]
              exact ⟨fits, bounded⟩
            · rw [items, List.flatMap_cons, bytes, bytesItems_append (header ++ body),
                List.append_assoc]

end Streams

section Capture

variable {transport : SocketTransport} {packets : List WirePacket} {rest : List Item}

theorem awaitFrame_eq (reassembler : FrameReassembler) (packet : WirePacket) :
    awaitFrame reassembler packet.header packet.body =
      if packet.type = 25 then
        match parseVideoFragment packet.body with
        | .error exn => .finish (.error exn)
        | .ok fragment =>
            match reassembler.feed fragment.fragNum fragment.data with
            | (.error exn, _) => .finish (.error exn)
            | (.ok (some frame), _) => .finish (.ok frame)
            | (.ok none, reassembler) => .wait reassembler
      else if packet.type = 8 then
        .finish (.error (.ikvm (stopSessionError packet.status.toNat)))
      else .wait reassembler := by
  have fragment : packet.header.type = opVideoFragment ↔ packet.type = 25 := by
    rw [← UInt16.toNat_inj]
    exact Int.ofNat_inj
  have stop : packet.header.type = opStopSessionImmediate ↔ packet.type = 8 := by
    rw [← UInt16.toNat_inj]
    exact Int.ofNat_inj
  simp only [awaitFrame, fragment, stop]
  rfl

/-- What the wait returns is what the reassembler makes of the fragments that are received. -/
theorem waitFor_awaitFrame_iff (bounded : ∀ packet ∈ packets, packet.body.length ≤ maxFrameBytes)
    (runsOut : RunsOut rest)
    (front : transport.sock.items = bytesItems (packets.flatMap WirePacket.bytes) ++ rest)
    (buf frame : Bytes) :
    (waitFor awaitFrame { buf } transport).1 = .ok frame ↔
      joinedFrame buf (receivedFragments packets) = some frame := by
  induction packets generalizing transport buf with
  | nil =>
      rcases runsOut with ⟨fault, rest', reads⟩
      rw [waitFor_error front reads]
      simp [receivedFragments, joinedFrame]
  | cons packet packets ih =>
      rw [List.flatMap_cons, bytesItems_append, List.append_assoc] at front
      rw [List.forall_mem_cons] at bounded
      have reads := WirePacket.reads bounded.1
        (bytesItems (packets.flatMap WirePacket.bytes) ++ rest)
      rw [← front] at reads
      have parsed : Header.ofBytes packet.header.marshal = packet.header :=
        WirePacket.ofBytes_marshal_header (lt_of_le_of_lt bounded.1 (by decide))
      have reaction := awaitFrame_eq { buf } packet
      rw [← parsed] at reaction
      by_cases isFragment : packet.type = 25
      · rw [if_pos isFragment] at reaction
        simp only [receivedFragments, if_pos isFragment]
        generalize parseVideoFragment packet.body = outcome at reaction ⊢
        rcases outcome with exn | fragment
        · rw [waitFor_finish reads reaction]
          simp [joinedFrame]
        · simp only [FrameReassembler.feed] at reaction
          simp only [joinedFrame]
          generalize (if isFirst fragment.fragNum then [] else buf) = collected at reaction ⊢
          by_cases tooLong : maxFrameBytes < collected.length + fragment.data.length
          · rw [if_pos tooLong] at reaction ⊢
            rw [waitFor_finish reads reaction]
            simp
          · rw [if_neg tooLong] at reaction ⊢
            cases last : isLast fragment.fragNum with
            | true =>
                simp only [last, if_true] at reaction ⊢
                rw [waitFor_finish reads reaction]
                simp
            | false =>
                simp only [last, Bool.false_eq_true, if_false] at reaction ⊢
                rcases waitFor_wait reads reaction with ⟨later, left, same⟩
                rw [same]
                exact ih bounded.2 left _
      · rw [if_neg isFragment] at reaction
        by_cases stop : packet.type = 8
        · rw [if_pos stop] at reaction
          simp only [receivedFragments, if_neg isFragment, if_pos stop]
          rw [waitFor_finish reads reaction]
          simp [joinedFrame]
        · rw [if_neg stop] at reaction
          rcases waitFor_wait reads reaction with ⟨later, left, same⟩
          simp only [receivedFragments, if_neg isFragment, if_neg stop]
          rw [same]
          exact ih bounded.2 left _

/-- Nothing is received after a fragment with the last bit. -/
theorem isLast_receivedFragments {front later : List VideoFragment} {fragment : VideoFragment}
    (split : receivedFragments packets = front ++ fragment :: later)
    (last : isLast fragment.fragNum = true) : later = [] := by
  induction packets generalizing front with
  | nil => simp [receivedFragments] at split
  | cons packet packets ih =>
      simp only [receivedFragments] at split
      split_ifs at split with isFragment stop
      · generalize parseVideoFragment packet.body = outcome at split
        rcases outcome with exn | head
        · simp at split
        · dsimp only at split
          rcases front with _ | ⟨head', front⟩
          · rw [List.nil_append, List.cons.injEq] at split
            rcases split with ⟨rfl, tail⟩
            rw [if_pos last] at tail
            exact tail.symm
          · rw [List.cons_append, List.cons.injEq] at split
            split_ifs at split
            · simp at split
            · exact ih split.2
      · simp at split
      · exact ih split

end Capture

section Counting

variable {seen pending : List VideoFragment} {next : Option ℕ} {fragment : VideoFragment}

theorem isFirst_iff (fragment : VideoFragment) :
    isFirst fragment.fragNum = true ↔ fragment.number = 0 := by
  rw [isFirst, beq_iff_eq, VideoFragment.number]

/-- The fragments that have been collected, out of those that have been received: they start
at the last number 0, if there has been one, and `next` counts them as long as their numbers
count up. -/
structure Collects (seen pending : List VideoFragment) (next : Option ℕ) : Prop where
  unfinished : ∀ fragment ∈ seen, isLast fragment.fragNum = false
  suffix : pending <:+ seen
  starts : (∃ head tail, pending = head :: tail ∧ head.number = 0 ∧
      ∀ fragment ∈ tail, fragment.number ≠ 0) ∨
    pending = seen ∧ ∀ fragment ∈ seen, fragment.number ≠ 0
  counted : ∀ k, next = some k ↔ pending ≠ [] ∧ k = pending.length ∧
    pending.map VideoFragment.number = List.range pending.length

theorem Collects.start : Collects [] [] none where
  unfinished := by simp
  suffix := List.suffix_rfl
  starts := .inr ⟨rfl, by simp⟩
  counted := by simp

theorem numbers_concat (front : List VideoFragment) (fragment : VideoFragment) :
    (front ++ [fragment]).map VideoFragment.number = List.range (front ++ [fragment]).length ↔
      front.map VideoFragment.number = List.range front.length ∧
        fragment.number = front.length := by
  rw [List.map_append, List.length_append, List.length_singleton, List.range_succ]
  constructor
  · intro numbers
    rcases List.append_inj numbers (by simp) with ⟨same, last⟩
    exact ⟨same, by simpa using last⟩
  · rintro ⟨same, last⟩
    rw [same, ← last]
    rfl

/-- A fragment that starts a new frame. -/
theorem Collects.first (collects : Collects seen pending next)
    (first : fragment.number = 0) (unfinished : isLast fragment.fragNum = false) :
    Collects (seen ++ [fragment]) [fragment] (some 1) where
  unfinished := by
    simpa [or_imp, forall_and, unfinished] using collects.unfinished
  suffix := List.suffix_append _ _
  starts := .inl ⟨fragment, [], rfl, first, by simp⟩
  counted k := by simp [first, eq_comm]

/-- A fragment that continues a frame. -/
theorem Collects.further (collects : Collects seen pending next)
    (further : fragment.number ≠ 0) (unfinished : isLast fragment.fragNum = false) :
    Collects (seen ++ [fragment]) (pending ++ [fragment])
      (if next = some fragment.number then some (fragment.number + 1) else none) where
  unfinished := by
    simpa [or_imp, forall_and, unfinished] using collects.unfinished
  suffix := by
    rcases collects.suffix with ⟨before, rfl⟩
    exact ⟨before, by simp⟩
  starts := by
    rcases collects.starts with ⟨head, tail, rfl, zero, positive⟩ | ⟨rfl, positive⟩
    · refine .inl ⟨head, tail ++ [fragment], by simp, zero, ?_⟩
      simpa [or_imp, forall_and, further] using positive
    · refine .inr ⟨rfl, ?_⟩
      simpa [or_imp, forall_and, further] using positive
  counted k := by
    rw [numbers_concat]
    have counted := collects.counted fragment.number
    have nonempty : fragment.number = pending.length → pending ≠ [] := by
      rintro length rfl
      exact further length
    simp only [ne_eq, List.append_eq_nil_iff, List.cons_ne_self, and_false, not_false_eq_true,
      true_and, List.length_append, List.length_singleton]
    by_cases expected : next = some fragment.number
    · rw [if_pos expected]
      rcases counted.mp expected with ⟨-, length, numbers⟩
      simp only [Option.some.injEq, numbers, length, and_self, and_true]
      exact eq_comm
    · rw [if_neg expected]
      simp only [reduceCtorEq, false_iff, not_and]
      intro _ numbers length
      exact expected (counted.mpr ⟨nonempty length, length, numbers⟩)

/-- A run that is a frame starts where the collection does. -/
theorem Collects.front_eq (collects : Collects seen pending next) {front : List VideoFragment}
    (received : front <:+ seen) (nonempty : front ≠ [])
    (numbers : front.map VideoFragment.number = List.range front.length) : front = pending := by
  obtain ⟨head, tail, rfl⟩ := List.exists_cons_of_ne_nil nonempty
  have zero : head.number = 0 := by
    simpa [List.range_succ_eq_map] using congrArg List.head? numbers
  have positive : ∀ fragment ∈ tail, fragment.number ≠ 0 := by
    rw [List.map_cons, List.length_cons, List.range_succ_eq_map, List.cons.injEq] at numbers
    intro fragment mem
    have value : fragment.number ∈ tail.map VideoFragment.number := List.mem_map_of_mem mem
    rw [numbers.2] at value
    simp only [List.mem_map] at value
    rcases value with ⟨i, -, value⟩
    rw [← value]
    exact Nat.succ_ne_zero i
  rcases collects.starts with ⟨head', tail', rfl, zero', positive'⟩ | ⟨-, noZero⟩
  · rcases List.suffix_or_suffix_of_suffix received collects.suffix with
      ⟨before, split⟩ | ⟨before, split⟩
    · rcases before with _ | ⟨head'', before⟩
      · exact split
      · rw [List.cons_append, List.cons.injEq] at split
        rcases split with ⟨-, rfl⟩
        exact absurd zero (positive' head (by simp))
    · rcases before with _ | ⟨head'', before⟩
      · exact split.symm
      · rw [List.cons_append, List.cons.injEq] at split
        rcases split with ⟨-, rfl⟩
        exact absurd zero' (positive head' (by simp))
  · exact absurd zero (noZero head (received.subset (by simp)))

/-- The frame that is completed by a fragment is one exactly when the fragment has the number
that was to come. -/
theorem Collects.isFrame_iff (collects : Collects seen pending next)
    (last : isLast fragment.fragNum = true) :
    (∃ run, run <:+: seen ++ [fragment] ∧
        IsFrame run
          ((if isFirst fragment.fragNum then [] else pending.flatMap VideoFragment.data) ++
            fragment.data)) ↔
      (if isFirst fragment.fragNum then some 0 else next) = some fragment.number := by
  by_cases first : isFirst fragment.fragNum = true
  · have zero := (isFirst_iff fragment).mp first
    rw [if_pos first, if_pos first, zero]
    simp only [iff_true]
    refine ⟨[fragment], (List.suffix_append _ _).isInfix, ?_, ⟨[], fragment, rfl, last, by simp⟩,
      by simp⟩
    simp [zero]
  · have positive := mt (isFirst_iff fragment).mpr first
    rw [if_neg first, if_neg first]
    constructor
    · rintro ⟨run, ⟨before, after, split⟩, numbers, ⟨front, final, rfl, finalLast, -⟩, -⟩
      have placed : front <:+ seen ∧ final = fragment := by
        rcases List.eq_nil_or_concat after with rfl | ⟨after, tail, rfl⟩
        · rw [List.append_nil, ← List.append_assoc] at split
          rcases List.append_inj' split rfl with ⟨same, tail⟩
          exact ⟨⟨before, same⟩, by simpa using tail⟩
        · rw [List.concat_eq_append, ← List.append_assoc] at split
          rcases List.append_inj' split rfl with ⟨same, -⟩
          have unfinished := collects.unfinished final (by rw [← same]; simp)
          rw [finalLast] at unfinished
          cases unfinished
      rcases placed with ⟨received, rfl⟩
      rcases (numbers_concat _ _).mp numbers with ⟨numbers, length⟩
      have nonempty : front ≠ [] := by
        rintro rfl
        exact positive length
      have same := collects.front_eq received nonempty numbers
      rw [same] at nonempty length numbers
      exact (collects.counted _).mpr ⟨nonempty, length, numbers⟩
    · intro expected
      rcases (collects.counted _).mp expected with ⟨-, length, numbers⟩
      rcases collects.suffix with ⟨before, split⟩
      refine ⟨pending ++ [fragment], ⟨before, [], by rw [← split]; simp⟩,
        (numbers_concat _ _).mpr ⟨numbers, length⟩, ⟨pending, fragment, rfl, last, ?_⟩, by simp⟩
      intro other mem
      exact collects.unfinished other (collects.suffix.subset mem)

/-- The frames that are joined are frames exactly when the fragments count up. -/
theorem Collects.joined_iff (collects : Collects seen pending next)
    {received : List VideoFragment}
    (ends : ∀ front fragment later, received = front ++ fragment :: later →
      isLast fragment.fragNum = true → later = []) :
    (∀ frame, joinedFrame (pending.flatMap VideoFragment.data) received = some frame →
        ∃ run, run <:+: seen ++ received ∧ IsFrame run frame) ↔
      countsUp next (pending.flatMap VideoFragment.data).length received = true := by
  induction received generalizing seen pending next with
  | nil => simp [joinedFrame, countsUp]
  | cons fragment later ih =>
      have following : ∀ front fragment' later', later = front ++ fragment' :: later' →
          isLast fragment'.fragNum = true → later' = [] := by
        rintro front fragment' later' rfl
        exact ends (fragment :: front) fragment' later' rfl
      have size : (if isFirst fragment.fragNum then 0
          else (pending.flatMap VideoFragment.data).length) =
            (if isFirst fragment.fragNum then []
              else pending.flatMap VideoFragment.data).length := by
        split_ifs <;> rfl
      simp only [joinedFrame, countsUp, size]
      by_cases tooLong : maxFrameBytes <
          (if isFirst fragment.fragNum then []
            else pending.flatMap VideoFragment.data).length + fragment.data.length
      · simp only [if_pos tooLong, reduceCtorEq, false_implies, implies_true]
      · simp only [if_neg tooLong]
        cases last : isLast fragment.fragNum with
        | true =>
            obtain rfl := ends [] fragment later rfl last
            simp only [if_true, Option.some.injEq, forall_eq', beq_iff_eq]
            exact collects.isFrame_iff last
        | false =>
            simp only [Bool.false_eq_true, if_false]
            by_cases first : isFirst fragment.fragNum = true
            · have zero := (isFirst_iff fragment).mp first
              have step := ih (collects.first zero last) following
              simp only [first, if_true, zero, List.nil_append, Nat.zero_add, List.length_nil]
              simpa using step
            · have further := mt (isFirst_iff fragment).mpr first
              have step := ih (collects.further further last) following
              simp only [if_neg first]
              simpa using step

end Counting

/-- The bytes that are captured are a frame exactly when the fragments received count up from 0
to the one that ends the capture; the capture needs the refresh to go out, if requested. -/
theorem capturesFrames_iff {transport : SocketTransport} {requestRefresh : Bool}
    {packets : List WirePacket} {rest : List Item}
    (bounded : ∀ packet ∈ packets, packet.body.length ≤ maxFrameBytes) (runsOut : RunsOut rest)
    (front : transport.sock.items = bytesItems (packets.flatMap WirePacket.bytes) ++ rest) :
    CapturesFrames requestRefresh transport packets ↔
      ((requestRefresh = true → transport.sock.CanSend) →
        countsUp none 0 (receivedFragments packets) = true) := by
  unfold CapturesFrames
  rcases captureOneFrame_fst_eq requestRefresh transport with
    ⟨later, items, canSend, same⟩ | ⟨cannotSend, exn, failed⟩
  · have ends : ∀ front fragment later, receivedFragments packets = front ++ fragment :: later →
        isLast fragment.fragNum = true → later = [] :=
      fun _ _ _ => isLast_receivedFragments
    have joined := Collects.start.joined_iff ends
    simp only [same, waitFor_awaitFrame_iff bounded runsOut (items.trans front) [],
      forall_prop_of_true canSend]
    simpa using joined
  · simp [failed, cannotSend]

theorem runsOut_nil : RunsOut [] := by
  have ended : Truncated packetFormat [] := .inl (by decide)
  rcases ended.reads with ⟨fault, -, reads⟩
  exact ⟨fault, [], reads⟩

/-- Two fragments that count up are captured as a frame. -/
theorem capturesFrames_two_fragments :
    CapturesFrames true (delivering [{ type := 25, body := [0, 0, 7] },
      { type := 25, body := [1, 128, 8, 9] }])
      [{ type := 25, body := [0, 0, 7] }, { type := 25, body := [1, 128, 8, 9] }] :=
  (capturesFrames_iff (by decide) runsOut_nil (items_delivering _)).mpr fun _ => by decide

/-- A stream that is entered at the last fragment of a frame. -/
theorem not_capturesFrames_entered_late :
    ¬ CapturesFrames false (delivering [{ type := 25, body := [5, 128, 8, 9] }])
      [{ type := 25, body := [5, 128, 8, 9] }] := by
  intro captures
  have captured : (captureOneFrame false
      (delivering [{ type := 25, body := [5, 128, 8, 9] }])).1 = .ok [8, 9] :=
    (waitFor_awaitFrame_iff (by decide) runsOut_nil (items_delivering _) [] [8, 9]).mpr (by decide)
  have last : isLast (⟨0x8005, false, true, [8, 9]⟩ : VideoFragment).fragNum = true := rfl
  have whole := (Collects.start.isFrame_iff last).mp (captures [8, 9] captured)
  revert whole
  decide

end Asmb8Ikvm.Ivtp

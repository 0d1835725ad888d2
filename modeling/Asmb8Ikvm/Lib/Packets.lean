import Asmb8Ikvm.Lib.ByteStream

/-!
# Packets on a byte stream

A packet is a header of fixed length followed by a body whose length the header
announces. A format says how long headers are and reads the length of the body
out of one, or refuses the header.

`ReadsPacket` specifies the reading of one packet on the items of a stream. It
is a function of the items, so a stream of a known shape has a known result.
-/

namespace ByteStream

universe u

/-- A packet format with refusals in `ε`. -/
structure PacketFormat (ε : Type u) where
  headerLen : ℕ
  bodyLen : Bytes → Except ε ℕ

/-- Why no packet was read: the header or the body could not be read, or the header was
refused. -/
inductive PacketFault (ε : Type u) where
  | header (fault : ReadFault)
  | refused (error : ε)
  | body (length : ℕ) (fault : ReadFault)

variable {ε : Type u} {format : PacketFormat ε}

/-- Read the header of a packet and then its body. -/
def Sock.readPacket (format : PacketFormat ε) (sock : Sock) :
    Except (PacketFault ε) (Bytes × Bytes) × Sock :=
  match sock.readExact format.headerLen with
  | (.error fault, sock) => (.error (.header fault), sock)
  | (.ok header, sock) =>
      match format.bodyLen header with
      | .error error => (.error (.refused error), sock)
      | .ok length =>
          match sock.readExact length with
          | (.error fault, sock) => (.error (.body length fault), sock)
          | (.ok body, sock) => (.ok (header, body), sock)

/-- The meaning of reading a packet on a sequence of items. -/
inductive ReadsPacket (format : PacketFormat ε) :
    List Item → Except (PacketFault ε) (Bytes × Bytes) → List Item → Prop where
  | whole {header body : Bytes} {rest : List Item} (length : header.length = format.headerLen)
      (announced : format.bodyLen header = .ok body.length) :
      ReadsPacket format (bytesItems (header ++ body) ++ rest) (.ok (header, body)) rest
  | refused {header : Bytes} {rest : List Item} {error : ε}
      (length : header.length = format.headerLen)
      (refuses : format.bodyLen header = .error error) :
      ReadsPacket format (bytesItems header ++ rest) (.error (.refused error)) rest
  | headerFault {items rest : List Item} {fault : ReadFault}
      (reads : ReadsTo format.headerLen items (.error fault) rest) :
      ReadsPacket format items (.error (.header fault)) rest
  | bodyFault {header : Bytes} {n : ℕ} {items rest : List Item} {fault : ReadFault}
      (length : header.length = format.headerLen) (announced : format.bodyLen header = .ok n)
      (reads : ReadsTo n items (.error fault) rest) :
      ReadsPacket format (bytesItems header ++ items) (.error (.body n fault)) rest

theorem Sock.readPacket_spec (format : PacketFormat ε) (sock : Sock) :
    ReadsPacket format sock.items (sock.readPacket format).1 (sock.readPacket format).2.items ∧
      sock.Advances (sock.readPacket format).2 := by
  rcases sock.readExact_spec format.headerLen with ⟨reads, advances⟩
  unfold Sock.readPacket
  generalize sock.readExact format.headerLen = outcome at reads advances ⊢
  rcases outcome with ⟨fault | header, afterHeader⟩
  · exact ⟨.headerFault reads, advances⟩
  · dsimp only at reads advances ⊢
    generalize sock.items = items at reads ⊢
    generalize left : afterHeader.items = rest at reads
    cases reads with
    | full enough =>
        cases announced : format.bodyLen header with
        | error error =>
            subst left
            exact ⟨.refused enough announced, advances⟩
        | ok length =>
            rcases afterHeader.readExact_spec length with ⟨reads, advances'⟩
            dsimp only
            rw [left] at reads
            generalize afterHeader.readExact length = outcome at reads advances' ⊢
            rcases outcome with ⟨fault | body, afterBody⟩
            · exact ⟨.bodyFault enough announced reads, advances.trans advances'⟩
            · dsimp only at reads ⊢
              generalize afterBody.items = rest' at reads ⊢
              cases reads with
              | full enough' =>
                  subst enough'
                  rw [← List.append_assoc, ← bytesItems_append]
                  exact ⟨.whole enough announced, advances.trans advances'⟩

/-- Reading a packet, one item at a time. -/
def packetItems (format : PacketFormat ε) (items : List Item) :
    Except (PacketFault ε) (Bytes × Bytes) × List Item :=
  match readItems format.headerLen [] items with
  | (.error fault, rest) => (.error (.header fault), rest)
  | (.ok header, rest) =>
      match format.bodyLen header with
      | .error error => (.error (.refused error), rest)
      | .ok length =>
          match readItems length [] rest with
          | (.error fault, rest) => (.error (.body length fault), rest)
          | (.ok body, rest) => (.ok (header, body), rest)

variable {items rest rest' : List Item} {result result' : Except (PacketFault ε) (Bytes × Bytes)}

theorem ReadsPacket.eq_packetItems (reads : ReadsPacket format items result rest) :
    (result, rest) = packetItems format items := by
  unfold packetItems
  cases reads with
  | @whole header body rest length announced =>
      have header : ReadsTo format.headerLen (bytesItems (header ++ body) ++ rest) (.ok header)
          (bytesItems body ++ rest) := by
        rw [bytesItems_append, List.append_assoc]
        exact .full length
      have body : ReadsTo body.length (bytesItems body ++ rest) (.ok body) rest := .full rfl
      simp only [← header.eq_readItems, announced, ← body.eq_readItems]
  | @refused header rest error length refuses =>
      have header : ReadsTo format.headerLen (bytesItems header ++ rest) (.ok header) rest :=
        .full length
      simp only [← header.eq_readItems, refuses]
  | headerFault reads => simp only [← reads.eq_readItems]
  | @bodyFault header n items rest fault length announced reads =>
      have header : ReadsTo format.headerLen (bytesItems header ++ items) (.ok header) items :=
        .full length
      simp only [← header.eq_readItems, announced, ← reads.eq_readItems]

theorem ReadsPacket.unique (reads : ReadsPacket format items result rest)
    (reads' : ReadsPacket format items result' rest') : result = result' ∧ rest = rest' := by
  have same := reads.eq_packetItems.trans reads'.eq_packetItems.symm
  simpa using same

theorem Sock.readPacket_eq {sock : Sock} (reads : ReadsPacket format sock.items result rest) :
    (sock.readPacket format).1 = result ∧ (sock.readPacket format).2.items = rest :=
  (sock.readPacket_spec format).1.unique reads

theorem ReadsPacket.length_lt (positive : 0 < format.headerLen)
    (reads : ReadsPacket format items result rest) :
    rest.length < items.length ∨ ∃ got, result = .error (.header (.closed got)) := by
  cases reads with
  | whole length announced =>
      left
      simp only [List.length_append, length_bytesItems]
      omega
  | refused length refuses =>
      left
      rw [List.length_append, length_bytesItems]
      omega
  | headerFault reads =>
      refine (reads.length_lt positive).imp_right ?_
      rintro ⟨got, same⟩
      cases same
      exact ⟨got, rfl⟩
  | bodyFault length announced reads =>
      left
      have shorter := reads.length_le
      rw [List.length_append, length_bytesItems]
      omega

/-- The peer has closed the connection before the packet was complete. -/
def PacketFault.IsClosed : PacketFault ε → Prop
  | .header (.closed _) | .body _ (.closed _) => True
  | _ => False

/-- The bytes end before a packet is complete, and the header, if complete, is not
refused. -/
def Truncated (format : PacketFormat ε) (bytes : Bytes) : Prop :=
  bytes.length < format.headerLen ∨
    format.headerLen ≤ bytes.length ∧
      ∃ n, format.bodyLen (bytes.take format.headerLen) = .ok n ∧
        bytes.length < format.headerLen + n

/-- A read meets the end of the stream only inside a packet. -/
theorem ReadsPacket.exists_truncated {fault : PacketFault ε}
    (reads : ReadsPacket format items (.error fault) rest) (closed : fault.IsClosed) :
    ∃ bytes, items = bytesItems bytes ∧ Truncated format bytes := by
  generalize same : (.error fault : Except (PacketFault ε) (Bytes × Bytes)) = result at reads
  cases reads with
  | whole => cases same
  | refused =>
      cases same
      cases closed
  | headerFault reads =>
      cases same
      cases reads with
      | timeout => cases closed
      | oserror => cases closed
      | closed short => exact ⟨_, List.append_nil _, .inl short⟩
  | @bodyFault header n items _ fault' length announced reads =>
      cases same
      cases reads with
      | timeout => cases closed
      | oserror => cases closed
      | @closed bytes short =>
          refine ⟨header ++ bytes, by simp, .inr ⟨?_, n, ?_, ?_⟩⟩
          · rw [List.length_append]
            omega
          · rw [List.take_left' length]
            exact announced
          · rw [List.length_append]
            omega

/-- A stream that ends inside a packet is read as closed. -/
theorem Truncated.reads {bytes : Bytes} (truncated : Truncated format bytes) :
    ∃ fault : PacketFault ε, fault.IsClosed ∧
      ReadsPacket format (bytesItems bytes) (.error fault) [] := by
  rcases truncated with short | ⟨long, n, announced, short⟩
  · refine ⟨.header (.closed bytes.length), trivial, .headerFault ?_⟩
    simpa using ReadsTo.closed short
  · have split : bytesItems bytes =
        bytesItems (bytes.take format.headerLen) ++
          (bytesItems (bytes.drop format.headerLen) ++ []) := by
      rw [List.append_nil, ← bytesItems_append, List.take_append_drop]
    have length : (bytes.take format.headerLen).length = format.headerLen := by
      rw [List.length_take]
      omega
    refine ⟨.body n (.closed (bytes.drop format.headerLen).length), trivial, ?_⟩
    rw [split]
    refine .bodyFault length announced (.closed ?_)
    rw [List.length_drop]
    omega

section Waiting

universe v w

/-- What a loop that waits for a packet does with one: it ends with a result, or it goes
on waiting in another state. -/
inductive Reaction (σ : Type v) (α : Type w) where
  | finish (result : α)
  | wait (state : σ)

variable {σ : Type v} {α : Type w} (react : σ → Bytes → Bytes → Reaction σ α)

/-- The stream ends while a loop that reacts with `react` is still waiting: after some
packets that do not end the wait it stops inside the next one. -/
inductive HangsUp (format : PacketFormat ε) : σ → List Item → Prop where
  | cut {state : σ} {bytes : Bytes} (truncated : Truncated format bytes) :
      HangsUp format state (bytesItems bytes)
  | later {state next : σ} {header body : Bytes} {rest : List Item}
      (length : header.length = format.headerLen)
      (announced : format.bodyLen header = .ok body.length)
      (waits : react state header body = .wait next) (hangsUp : HangsUp format next rest) :
      HangsUp format state (bytesItems (header ++ body) ++ rest)

variable {react}

/-- Whether the stream ends in the wait is decided by the next packet. -/
theorem ReadsPacket.hangsUp_iff {state : σ} (reads : ReadsPacket format items result rest) :
    HangsUp react format state items ↔
      match result with
      | .error fault => fault.IsClosed
      | .ok (header, body) =>
          ∃ next, react state header body = .wait next ∧ HangsUp react format next rest := by
  constructor
  · intro hangsUp
    cases hangsUp with
    | cut truncated =>
        rcases truncated.reads with ⟨fault, closed, reads'⟩
        rcases reads'.unique reads with ⟨rfl, -⟩
        exact closed
    | later length announced waits hangsUp =>
        rcases (ReadsPacket.whole length announced).unique reads with ⟨rfl, rfl⟩
        exact ⟨_, waits, hangsUp⟩
  · intro outcome
    rcases result with fault | ⟨header, body⟩
    · rcases reads.exists_truncated outcome with ⟨bytes, rfl, truncated⟩
      exact .cut truncated
    · rcases outcome with ⟨next, waits, hangsUp⟩
      cases reads with
      | whole length announced => exact .later length announced waits hangsUp

end Waiting

end ByteStream

import Asmb8Ikvm.Lib.Bytes

/-!
# A blocking socket and exact reads

The inbound side of a socket is the list of things its `recv` calls are going to
meet: chunks of data, elapsed timeouts and operating-system errors. When the
list is used up the peer has closed the connection, and `recv` answers with the
empty string. The list fixes the chunking, so a statement about every list is a
statement about every chunking and every placement of timeouts.

`Sock.readExact` is the usual loop that collects `n` bytes out of such chunks.
Its specification `ReadsTo` is stated on the sequence of single bytes and faults
that the chunks spell out: the result depends on that sequence only.
-/

namespace ByteStream

/-- What one `recv` can meet. A chunk of data is never empty: the empty result of
`recv` is the closed connection. -/
inductive Arrival where
  | data (head : UInt8) (tail : Bytes)
  | timeout
  | oserror (text : String)
deriving DecidableEq, Repr

/-- One byte of the stream, or a fault that stands between two bytes of it. -/
inductive Item where
  | byte (value : UInt8)
  | timeout
  | oserror (text : String)
deriving DecidableEq, Repr

/-- The bytes as items of the stream. -/
def bytesItems (bytes : Bytes) : List Item :=
  bytes.map Item.byte

/-- The bytes among the items. -/
def itemsBytes (items : List Item) : Bytes :=
  items.filterMap fun
    | .byte value => some value
    | _ => none

def Arrival.items : Arrival → List Item
  | .data head tail => bytesItems (head :: tail)
  | .timeout => [.timeout]
  | .oserror text => [.oserror text]

/-- A connected socket. `sendFaults` has the error, if any, of each `sendall` to
come (all succeed when it is used up), `received` counts the bytes `recv` has
handed out and `sent` has the arguments of the successful `sendall` calls. -/
structure Sock where
  inbound : List Arrival
  sendFaults : List (Option String) := []
  received : ℕ := 0
  sent : List Bytes := []
deriving DecidableEq, Repr

/-- The items still to come. -/
def Sock.items (sock : Sock) : List Item :=
  sock.inbound.flatMap Arrival.items

inductive RecvResult where
  | chunk (bytes : Bytes)
  | timeout
  | oserror (text : String)
deriving DecidableEq, Repr

/-- What is left of a chunk after its first `n` bytes have been taken. -/
def leftover : Bytes → List Arrival → List Arrival
  | [], rest => rest
  | head :: tail, rest => .data head tail :: rest

/-- `recv(n)`: at most `n` bytes of the next chunk. -/
def Sock.recv (n : ℕ) (sock : Sock) : RecvResult × Sock :=
  match sock.inbound with
  | [] => (.chunk [], sock)
  | .timeout :: rest => (.timeout, { sock with inbound := rest })
  | .oserror text :: rest => (.oserror text, { sock with inbound := rest })
  | .data head tail :: rest =>
      let chunk := (head :: tail).take n
      (.chunk chunk,
        { sock with
          inbound := leftover ((head :: tail).drop n) rest
          received := sock.received + chunk.length })

/-- `sendall(data)`: all of `data`, or an error. -/
def Sock.sendAll (data : Bytes) (sock : Sock) : Except String Unit × Sock :=
  match sock.sendFaults with
  | some text :: rest => (.error text, { sock with sendFaults := rest })
  | none :: rest => (.ok (), { sock with sendFaults := rest, sent := sock.sent ++ [data] })
  | [] => (.ok (), { sock with sent := sock.sent ++ [data] })

/-- The next `sendall` succeeds. -/
def Sock.CanSend (sock : Sock) : Prop :=
  sock.sendFaults.head?.join = none

/-- Why an exact read ended early, and how many bytes it had by then. -/
inductive ReadFault where
  | timeout (got : ℕ)
  | oserror (got : ℕ) (text : String)
  | closed (got : ℕ)
deriving DecidableEq, Repr

/-- The loop of an exact read: `chunks` has been collected, `n` bytes are wanted. -/
def Sock.readLoop (n : ℕ) (chunks : Bytes) (sock : Sock) : Except ReadFault Bytes × Sock :=
  if chunks.length < n then
    match sock.recv (n - chunks.length) with
    | (.timeout, sock') => (.error (.timeout chunks.length), sock')
    | (.oserror text, sock') => (.error (.oserror chunks.length text), sock')
    | (.chunk [], sock') => (.error (.closed chunks.length), sock')
    | (.chunk (head :: tail), sock') => readLoop n (chunks ++ head :: tail) sock'
  else (.ok chunks, sock)
termination_by n - chunks.length
decreasing_by
  simp only [List.length_append, List.length_cons]
  omega

/-- Read exactly `n` bytes, or say why that was not possible. -/
def Sock.readExact (n : ℕ) (sock : Sock) : Except ReadFault Bytes × Sock :=
  sock.readLoop n []

/-- The meaning of an exact read of `n` bytes on a sequence of items: what it
yields and which items it leaves. -/
inductive ReadsTo (n : ℕ) : List Item → Except ReadFault Bytes → List Item → Prop where
  | full {bytes : Bytes} {rest : List Item} (enough : bytes.length = n) :
      ReadsTo n (bytesItems bytes ++ rest) (.ok bytes) rest
  | timeout {bytes : Bytes} {rest : List Item} (short : bytes.length < n) :
      ReadsTo n (bytesItems bytes ++ .timeout :: rest) (.error (.timeout bytes.length)) rest
  | oserror {bytes : Bytes} {text : String} {rest : List Item} (short : bytes.length < n) :
      ReadsTo n (bytesItems bytes ++ .oserror text :: rest)
        (.error (.oserror bytes.length text)) rest
  | closed {bytes : Bytes} (short : bytes.length < n) :
      ReadsTo n (bytesItems bytes ++ []) (.error (.closed bytes.length)) []

/-- Reading changes nothing on the sending side, and `received` counts the bytes
that have left the inbound side. -/
structure Sock.Advances (sock later : Sock) : Prop where
  sendFaults : later.sendFaults = sock.sendFaults
  sent : later.sent = sock.sent
  received : later.received + (itemsBytes later.items).length =
    sock.received + (itemsBytes sock.items).length

section Items

@[simp]
theorem bytesItems_nil : bytesItems [] = [] := rfl

@[simp]
theorem bytesItems_append (left right : Bytes) :
    bytesItems (left ++ right) = bytesItems left ++ bytesItems right := by
  simp [bytesItems]

@[simp]
theorem itemsBytes_append (left right : List Item) :
    itemsBytes (left ++ right) = itemsBytes left ++ itemsBytes right := by
  simp [itemsBytes]

@[simp]
theorem itemsBytes_bytesItems (bytes : Bytes) : itemsBytes (bytesItems bytes) = bytes := by
  induction bytes with
  | nil => rfl
  | cons head tail ih =>
      simp only [itemsBytes, bytesItems, List.map_cons] at ih ⊢
      simp [ih]

@[simp]
theorem itemsBytes_nil : itemsBytes [] = [] := rfl

@[simp]
theorem itemsBytes_timeout (rest : List Item) :
    itemsBytes (.timeout :: rest) = itemsBytes rest := rfl

@[simp]
theorem length_bytesItems (bytes : Bytes) : (bytesItems bytes).length = bytes.length := by
  simp [bytesItems]

theorem items_leftover (bytes : Bytes) (rest : List Arrival) :
    (leftover bytes rest).flatMap Arrival.items =
      bytesItems bytes ++ rest.flatMap Arrival.items := by
  cases bytes with
  | nil => rfl
  | cons head tail => rfl

/-- An exact read that takes one byte at a time. -/
def readItems (n : ℕ) (chunks : Bytes) : List Item → Except ReadFault Bytes × List Item
  | [] =>
      if chunks.length < n then (.error (.closed chunks.length), []) else (.ok chunks, [])
  | .timeout :: rest =>
      if chunks.length < n then (.error (.timeout chunks.length), rest)
      else (.ok chunks, .timeout :: rest)
  | .oserror text :: rest =>
      if chunks.length < n then (.error (.oserror chunks.length text), rest)
      else (.ok chunks, .oserror text :: rest)
  | .byte value :: rest =>
      if chunks.length < n then readItems n (chunks ++ [value]) rest
      else (.ok chunks, .byte value :: rest)

theorem readItems_bytesItems {n : ℕ} {chunks bytes : Bytes} (rest : List Item)
    (within : chunks.length + bytes.length ≤ n) :
    readItems n chunks (bytesItems bytes ++ rest) = readItems n (chunks ++ bytes) rest := by
  induction bytes generalizing chunks with
  | nil => simp
  | cons head tail ih =>
      rw [List.length_cons] at within
      have step : readItems n chunks (bytesItems (head :: tail) ++ rest) =
          readItems n (chunks ++ [head]) (bytesItems tail ++ rest) :=
        if_pos (by omega)
      rw [step, ih (by simp only [List.length_append, List.length_singleton]; omega)]
      simp

theorem readItems_full {n : ℕ} {chunks : Bytes} (rest : List Item) (enough : chunks.length = n) :
    readItems n chunks rest = (.ok chunks, rest) := by
  rcases rest with _ | ⟨item, rest⟩
  · simp [readItems, enough]
  · cases item <;> simp [readItems, enough]

theorem ReadsTo.eq_readItems {n : ℕ} {items rest : List Item}
    {result : Except ReadFault Bytes} (reads : ReadsTo n items result rest) :
    (result, rest) = readItems n [] items := by
  cases reads with
  | full enough =>
      rw [readItems_bytesItems _ (by simp [enough]), List.nil_append, readItems_full _ enough]
  | timeout short =>
      rw [readItems_bytesItems _ (by simpa using short.le)]
      simp [readItems, short]
  | oserror short =>
      rw [readItems_bytesItems _ (by simpa using short.le)]
      simp [readItems, short]
  | closed short =>
      rw [readItems_bytesItems _ (by simpa using short.le)]
      simp [readItems, short]

theorem ReadsTo.unique {n : ℕ} {items rest rest' : List Item}
    {result result' : Except ReadFault Bytes} (reads : ReadsTo n items result rest)
    (reads' : ReadsTo n items result' rest') : result = result' ∧ rest = rest' := by
  have same := reads.eq_readItems.trans reads'.eq_readItems.symm
  simpa using same

theorem ReadsTo.length_le {n : ℕ} {items rest : List Item} {result : Except ReadFault Bytes}
    (reads : ReadsTo n items result rest) : rest.length ≤ items.length := by
  cases reads with
  | full | timeout | oserror | closed =>
      simp only [List.length_append, List.length_cons, List.length_nil]
      omega

theorem ReadsTo.length_lt {n : ℕ} {items rest : List Item} {result : Except ReadFault Bytes}
    (wanted : 0 < n) (reads : ReadsTo n items result rest) :
    rest.length < items.length ∨ ∃ got, result = .error (.closed got) := by
  cases reads with
  | closed => exact .inr ⟨_, rfl⟩
  | full enough =>
      left
      rw [List.length_append, length_bytesItems]
      omega
  | timeout | oserror =>
      left
      rw [List.length_append, List.length_cons]
      omega

end Items

section Recv

variable {sock : Sock} {n : ℕ}

/-- What `recv` does, on the items. -/
inductive Sock.RecvSpec (sock : Sock) (n : ℕ) : Prop where
  | closed (atEnd : sock.items = []) (result : sock.recv n = (.chunk [], sock))
  | timeout (later : Sock) (head : sock.items = .timeout :: later.items)
      (result : sock.recv n = (.timeout, later)) (advances : sock.Advances later)
  | oserror (text : String) (later : Sock) (head : sock.items = .oserror text :: later.items)
      (result : sock.recv n = (.oserror text, later)) (advances : sock.Advances later)
  | chunk (head : UInt8) (tail : Bytes) (later : Sock) (bounded : (head :: tail).length ≤ n)
      (front : sock.items = bytesItems (head :: tail) ++ later.items)
      (result : sock.recv n = (.chunk (head :: tail), later)) (advances : sock.Advances later)

theorem Sock.recv_spec (positive : 0 < n) : sock.RecvSpec n := by
  rcases sock with ⟨inbound, sendFaults, received, sent⟩
  cases inbound with
  | nil => exact .closed rfl rfl
  | cons arrival rest =>
      cases arrival with
      | timeout => exact .timeout ⟨rest, sendFaults, received, sent⟩ rfl rfl ⟨rfl, rfl, rfl⟩
      | oserror text =>
          exact .oserror text ⟨rest, sendFaults, received, sent⟩ rfl rfl ⟨rfl, rfl, rfl⟩
      | data head tail =>
          obtain ⟨m, rfl⟩ : ∃ m, n = m + 1 := ⟨n - 1, by omega⟩
          have split : bytesItems (head :: tail) =
              bytesItems (head :: tail.take m) ++ bytesItems (tail.drop m) := by
            rw [← bytesItems_append, List.cons_append, List.take_append_drop]
          refine .chunk head (tail.take m)
            ⟨leftover (tail.drop m) rest, sendFaults,
              received + (head :: tail.take m).length, sent⟩ ?_ ?_ rfl ⟨rfl, rfl, ?_⟩
          · simp only [List.length_cons, List.length_take]
            omega
          · simp only [Sock.items, List.flatMap_cons, Arrival.items, items_leftover]
            rw [split, List.append_assoc]
          · simp only [Sock.items, List.flatMap_cons, Arrival.items, items_leftover,
              itemsBytes_append, itemsBytes_bytesItems, List.length_append, List.length_cons,
              List.length_take, List.length_drop]
            omega

end Recv

theorem Sock.Advances.refl (sock : Sock) : sock.Advances sock :=
  ⟨rfl, rfl, rfl⟩

theorem Sock.Advances.trans {first second third : Sock} (left : first.Advances second)
    (right : second.Advances third) : first.Advances third :=
  ⟨right.sendFaults.trans left.sendFaults, right.sent.trans left.sent,
    right.received.trans left.received⟩

theorem Sock.readLoop_spec (n : ℕ) (chunks : Bytes) (sock : Sock) (bounded : chunks.length ≤ n) :
    ReadsTo n (bytesItems chunks ++ sock.items) (sock.readLoop n chunks).1
        (sock.readLoop n chunks).2.items ∧
      sock.Advances (sock.readLoop n chunks).2 := by
  rw [Sock.readLoop]
  by_cases more : chunks.length < n
  · rw [if_pos more]
    rcases sock.recv_spec (n := n - chunks.length) (by omega) with
      ⟨atEnd, result⟩ | ⟨later, front, result, advances⟩ |
      ⟨text, later, front, result, advances⟩ |
      ⟨head, tail, later, within, front, result, advances⟩
    · rw [result, atEnd]
      exact ⟨by simpa only [atEnd] using ReadsTo.closed more, .refl sock⟩
    · rw [result, front]
      exact ⟨.timeout more, advances⟩
    · rw [result, front]
      exact ⟨.oserror more, advances⟩
    · rw [result, front, ← List.append_assoc, ← bytesItems_append]
      have ⟨reads, advances'⟩ := Sock.readLoop_spec n (chunks ++ head :: tail) later (by
        simp only [List.length_append]
        omega)
      exact ⟨reads, advances.trans advances'⟩
  · rw [if_neg more]
    exact ⟨.full (by omega), .refl sock⟩
termination_by n - chunks.length
decreasing_by
  simp only [List.length_append, List.length_cons]
  omega

@[simp]
theorem Sock.readExact_zero (sock : Sock) : sock.readExact 0 = (.ok [], sock) := by
  rw [Sock.readExact, Sock.readLoop]
  rfl

/-- The exact read means what `ReadsTo` says: chunking is irrelevant. -/
theorem Sock.readExact_spec (n : ℕ) (sock : Sock) :
    ReadsTo n sock.items (sock.readExact n).1 (sock.readExact n).2.items ∧
      sock.Advances (sock.readExact n).2 := by
  simpa [Sock.readExact] using Sock.readLoop_spec n [] sock (Nat.zero_le n)

end ByteStream

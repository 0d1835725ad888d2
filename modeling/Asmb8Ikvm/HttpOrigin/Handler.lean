import Asmb8Ikvm.HttpOrigin.Range
import Asmb8Ikvm.HttpOrigin.Resolve
import Asmb8Ikvm.Redact

/-!
# The request handler

`_Handler._handle` of `http_origin.py` with the parts of `http.server` it calls.
Every operation on the file and every write to the socket can fail; a write that
fails may have sent a part of what it was given. The head of a response is
collected in a buffer, which is emptied when it has been written.

Without failures the handler serves the ranges of a file.
-/

namespace Asmb8Ikvm.HttpOrigin

open PyText Paths

/-- What is written to the connection: the lines of a head and the bytes of a body. -/
inductive Item where
  | statusLine (code : ℕ) (reason : String)
  | header (name value : String)
  | blank
  | byte (value : UInt8)
deriving DecidableEq, Repr

/-- The errors that are told apart: a `BrokenPipeError` or a `ConnectionResetError`, one that tells
`Path.is_file` that there is no file, and the others. -/
inductive ErrorKind where
  | hangup
  | missing
  | other
deriving DecidableEq, Repr

/-- An `OSError` with its text. -/
structure OSErr where
  kind : ErrorKind
  text : String
deriving DecidableEq, Repr

/-- The operations that fail: the two calls of `stat`, `open`, `seek`, the reads of the file, and
the writes to the socket, each with the number of items that are sent nevertheless. -/
structure Faults where
  isFile : Option OSErr := none
  stat : Option OSErr := none
  openFile : Option OSErr := none
  seek : Option OSErr := none
  read : ℕ → Option OSErr := fun _ => none
  write : ℕ → Option (ℕ × OSErr) := fun _ => none

/-- What the handler serves, and what it takes from the standard library. The size of a file is a
signed number of 64 bits. -/
structure Origin where
  tree : Tree
  root : Path
  content : Path → Bytes
  content_lt : ∀ path, (content path).length < 2 ^ 63
  guessType : Path → Option String
  phrase : ℕ → String
  errorPage : ℕ → String → Bytes
  errorPage_ne_nil : ∀ code message, errorPage code message ≠ []
  date : String
  now : String
  table : CharTable

inductive Command where
  | get
  | head
deriving DecidableEq, Repr

structure Request where
  command : Command
  target : List Char
  range : Option (List Char)
  selfTest : Bool
  client : String

/-- The values of the key `outcome`. -/
inductive Outcome where
  | ok
  | blockedTraversal
  | notFound
  | rangeNotSatisfiable
  | clientDisconnected
  | error
deriving DecidableEq, Repr

/-- A line of the access log. -/
structure AccessRecord where
  time : String
  method : Command
  path : List Char
  status : ℕ
  outcome : Outcome
  bytesSent : ℕ
  client : String
  selfTest : Bool
deriving DecidableEq, Repr

/-- The connection: the buffer of the head, what has been sent, and the number of writes. -/
structure Conn where
  pending : List Item := []
  sent : List Item := []
  writes : ℕ := 0
deriving DecidableEq, Repr

/-- The exceptions that can leave a response. -/
inductive Raised where
  | os (error : OSErr)
  | unicodeEncodeError
deriving DecidableEq, Repr

namespace Conn

def write (faults : Faults) (items : List Item) (conn : Conn) : Except OSErr Unit × Conn :=
  match faults.write conn.writes with
  | some (delivered, error) =>
      (.error error, { conn with
        sent := conn.sent ++ items.take delivered, writes := conn.writes + 1 })
  | none => (.ok (), { conn with sent := conn.sent ++ items, writes := conn.writes + 1 })

/-- `send_header`, several times. -/
def sendHeaders (headers : List (String × String)) (conn : Conn) : Conn :=
  { conn with pending := conn.pending ++ headers.map fun header => .header header.1 header.2 }

def sendResponse (origin : Origin) (code : ℕ) (reason : String) (conn : Conn) : Conn :=
  ({ conn with pending := conn.pending ++ [.statusLine code reason] } : Conn).sendHeaders
    [("Server", "asmb8-http-origin/1.0 "), ("Date", origin.date)]

def endHeaders (faults : Faults) (conn : Conn) : Except OSErr Unit × Conn :=
  let conn : Conn := { conn with pending := conn.pending ++ [.blank] }
  match conn.write faults conn.pending with
  | (.error error, conn) => (.error error, conn)
  | (.ok (), conn) => (.ok (), { conn with pending := [] })

/-- Whether the reason of a status line is in Latin-1. -/
def encodable (message : String) : Bool :=
  message.toList.all fun c => c.toNat < 256

def sendError (origin : Origin) (faults : Faults) (command : Command) (code : ℕ)
    (message : String) (conn : Conn) : Except Raised Unit × Conn :=
  if encodable message = false then (.error .unicodeEncodeError, conn)
  else
    let body := origin.errorPage code message
    let conn := (conn.sendResponse origin code message).sendHeaders
      [("Connection", "close"), ("Content-Type", "text/html;charset=utf-8"),
        ("Content-Length", toString body.length)]
    match conn.endHeaders faults with
    | (.error error, conn) => (.error (.os error), conn)
    | (.ok (), conn) =>
        if command = .head ∨ body = [] then (.ok (), conn)
        else
          match conn.write faults (body.map .byte) with
          | (.error error, conn) => (.error (.os error), conn)
          | (.ok (), conn) => (.ok (), conn)

end Conn

def copyBufferSize : ℕ :=
  64 * 1024

/-- The copy loop from a position of the file on, with the number of bytes that have been sent.
Each turn takes one unit of fuel and at least one byte. -/
def copy (faults : Faults) (content : Bytes) :
    ℕ → (position remaining reads : ℕ) → Conn → ℕ → Except OSErr Unit × Conn × ℕ
  | 0, _, _, _, conn, bytesSent => (.ok (), conn, bytesSent)
  | fuel + 1, position, remaining, reads, conn, bytesSent =>
      if remaining = 0 then (.ok (), conn, bytesSent)
      else
        match faults.read reads with
        | some error => (.error error, conn, bytesSent)
        | none =>
            let chunk := (content.drop position).take (min copyBufferSize remaining)
            if chunk = [] then (.ok (), conn, bytesSent)
            else
              match conn.write faults (chunk.map .byte) with
              | (.error error, conn) => (.error error, conn, bytesSent)
              | (.ok (), conn) =>
                  copy faults content fuel (position + chunk.length) (remaining - chunk.length)
                    (reads + 1) conn (bytesSent + chunk.length)

/-- The body of the inner `try`. -/
def stream (faults : Faults) (content : Bytes) (start length : ℤ) (conn : Conn) :
    Except OSErr Unit × Conn × ℕ :=
  match faults.openFile with
  | some error => (.error error, conn, 0)
  | none =>
      match faults.seek with
      | some error => (.error error, conn, 0)
      | none => copy faults content length.toNat start.toNat length.toNat 0 conn 0

/-- The variables `status`, `outcome` and `bytes_sent`. -/
structure Progress where
  status : ℕ := 200
  outcome : Outcome := .ok
  bytesSent : ℕ := 0
deriving DecidableEq, Repr

/-- What `_handle` answers a request with, before it has sent anything. -/
inductive Answer where
  | missing (outcome : Outcome)
  | unsatisfiable (fileSize : ℕ)
  | file (resolved : Path) (fileSize : ℕ) (byteRange : Option ByteRange)

/-- `_handle` up to the first line that is sent. -/
def choose (origin : Origin) (faults : Faults) (request : Request) : Except OSErr Answer :=
  match resolveWithinRoot origin.tree origin.root request.target with
  | none => .ok (.missing .blockedTraversal)
  | some resolved =>
      match faults.isFile with
      | some error => if error.kind = .missing then .ok (.missing .notFound) else .error error
      | none =>
          if origin.tree.isFile resolved = false then .ok (.missing .notFound)
          else
            match faults.stat with
            | some _ => .ok (.missing .notFound)
            | none =>
                let fileSize := (origin.content resolved).length
                match parseRangeHeader origin.table request.range fileSize with
                | .error .raised => .ok (.unsatisfiable fileSize)
                | .ok byteRange => .ok (.file resolved fileSize byteRange)

/-- The first and the last position of what is served. -/
def bounds (fileSize : ℕ) : Option ByteRange → ℤ × ℤ
  | none => (0, fileSize - 1)
  | some byteRange => (byteRange.start, byteRange.last)

/-- The headers of a file, behind those of every response. -/
def fileHeaders (origin : Origin) (resolved : Path) (fileSize : ℕ) (byteRange : Option ByteRange) :
    List (String × String) :=
  let (start, last) := bounds fileSize byteRange
  [("Content-Type", orElse (origin.guessType resolved) "application/octet-stream"),
    ("Content-Length", toString (last - start + 1)), ("Accept-Ranges", "bytes")] ++
  match byteRange with
  | none => []
  | some _ => [("Content-Range", "bytes " ++ toString start ++ "-" ++ toString last ++ "/" ++
      toString fileSize)]

/-- The part of `_handle` that sends the answer. -/
def send (origin : Origin) (faults : Faults) (command : Command) (answer : Answer) (conn : Conn) :
    Except Raised Unit × Conn × Progress :=
  match answer with
  | .missing outcome =>
      let (result, conn) := conn.sendError origin faults command 404 "Not Found"
      (result, conn, { status := 404, outcome })
  | .unsatisfiable fileSize =>
      let progress : Progress := { status := 416, outcome := .rangeNotSatisfiable }
      let conn := (conn.sendResponse origin 416 (origin.phrase 416)).sendHeaders
        [("Content-Range", "bytes */" ++ toString fileSize), ("Content-Length", "0")]
      match conn.endHeaders faults with
      | (.error error, conn) => (.error (.os error), conn, progress)
      | (.ok (), conn) => (.ok (), conn, progress)
  | .file resolved fileSize byteRange =>
      let (start, last) := bounds fileSize byteRange
      let status := if byteRange.isSome then 206 else 200
      let conn := (conn.sendResponse origin status (origin.phrase status)).sendHeaders
        (fileHeaders origin resolved fileSize byteRange)
      match conn.endHeaders faults with
      | (.error error, conn) => (.error (.os error), conn, { status })
      | (.ok (), conn) =>
          if command = .head then (.ok (), conn, { status })
          else
            match stream faults (origin.content resolved) start (last - start + 1) conn with
            | (.ok (), conn, bytesSent) => (.ok (), conn, { status, bytesSent })
            | (.error error, conn, bytesSent) =>
                if error.kind = .hangup then
                  (.ok (), conn, { status, outcome := .clientDisconnected, bytesSent })
                else (.error (.os error), conn, { status, bytesSent })

/-- What a request leaves behind: the connection, the line of the access log, and the bytes that
are added to the counters of the daemon, unless the request is its own. -/
structure Handled where
  conn : Conn
  logged : AccessRecord
  counted : Option ℕ

/-- The text the handler of a failure answers with. -/
def failureMessage (origin : Origin) (error : OSErr) : String :=
  redact origin.table error.text []

/-- The `except OSError` of `_handle`. -/
def recover (origin : Origin) (faults : Faults) (command : Command) :
    Except Raised Unit × Conn × Progress → Conn × Progress
  | (.error (.os error), conn, progress) =>
      ((conn.sendError origin faults command 500 (failureMessage origin error)).2,
        { progress with status := 500, outcome := .error })
  | (_, conn, progress) => (conn, progress)

/-- `_handle`. -/
def handle (origin : Origin) (faults : Faults) (request : Request) : Handled :=
  let (conn, progress) := recover origin faults request.command <|
    match choose origin faults request with
    | .error error => (.error (.os error), {}, {})
    | .ok answer => send origin faults request.command answer {}
  { conn
    logged := {
      time := origin.now
      method := request.command
      path := request.target
      status := progress.status
      outcome := progress.outcome
      bytesSent := progress.bytesSent
      client := request.client
      selfTest := request.selfTest }
    counted := if request.selfTest then none else some progress.bytesSent }

section Stream

variable {faults : Faults} {content : Bytes}

/-- The number of chunks a part of a file is copied in. -/
def chunkCount (remaining : ℕ) : ℕ :=
  (remaining + copyBufferSize - 1) / copyBufferSize

/-- The failures of the copy loop in the order of its operations. -/
def copyFaults (faults : Faults) (reads writes : ℕ) : ℕ → List (Option OSErr)
  | 0 => []
  | chunks + 1 => faults.read reads :: (faults.write writes).map Prod.snd ::
      copyFaults faults (reads + 1) (writes + 1) chunks

/-- How operations end of which this one is the first to fail. -/
def endsWith : Option OSErr → Except OSErr Unit
  | none => .ok ()
  | some error => .error error

/-- What becomes of the copy loop. -/
structure Copies (faults : Faults) (content : Bytes) (position remaining reads : ℕ) (conn : Conn)
    (copied : Except OSErr Unit × Conn × ℕ) : Prop where
  pending : copied.2.1.pending = conn.pending
  sent : ∃ n ≤ remaining,
    copied.2.1.sent = conn.sent ++ ((content.slice position n).map .byte) ∧
      (copied.1 = .ok () → n = remaining)
  failure : copied.1 =
    endsWith (copyFaults faults reads conn.writes (chunkCount remaining)).reduceOption.head?

theorem chunkCount_sub {remaining : ℕ} (positive : 0 < remaining) :
    chunkCount remaining = chunkCount (remaining - min copyBufferSize remaining) + 1 := by
  simp only [chunkCount, copyBufferSize]
  omega

variable (faults) in
theorem copy_copies {fuel position remaining : ℕ} (reads : ℕ) (conn : Conn) (bytesSent : ℕ)
    (enough : remaining ≤ fuel) (inFile : position + remaining ≤ content.length) :
    Copies faults content position remaining reads conn
      (copy faults content fuel position remaining reads conn bytesSent) := by
  have nothing (position : ℕ) (conn : Conn) : conn.sent =
      conn.sent ++ (content.slice position 0).map Item.byte := by
    simp [Bytes.slice]
  induction fuel generalizing position remaining reads conn bytesSent with
  | zero =>
      obtain rfl : remaining = 0 := Nat.le_zero.mp enough
      exact ⟨rfl, ⟨0, le_refl _, nothing position conn, fun _ => rfl⟩, rfl⟩
  | succ fuel ih =>
      by_cases done : remaining = 0
      · subst done
        exact ⟨rfl, ⟨0, le_refl _, nothing position conn, fun _ => rfl⟩, rfl⟩
      · have chunks := chunkCount_sub (Nat.pos_of_ne_zero done)
        have positive : 0 < min copyBufferSize remaining := by
          rw [copyBufferSize]
          omega
        generalize amount : min copyBufferSize remaining = size at chunks positive
        have size_le : size ≤ remaining := amount ▸ Nat.min_le_right _ _
        have length : ((content.drop position).take size).length = size := by
          rw [List.length_take, List.length_drop]
          omega
        have some_chunk : (content.drop position).take size ≠ [] := by
          intro empty
          rw [empty, List.length_nil] at length
          omega
        rw [copy, if_neg done, amount]
        cases readFault : faults.read reads with
        | some error =>
            refine ⟨rfl,
              ⟨0, Nat.zero_le _, nothing position conn, fun absurdly => nomatch absurdly⟩, ?_⟩
            rw [chunks, copyFaults, readFault, List.reduceOption_cons_of_some]
            rfl
        | none =>
            dsimp only
            rw [if_neg some_chunk, Conn.write]
            cases writeFault : faults.write conn.writes with
            | some failure =>
                rcases failure with ⟨delivered, error⟩
                refine ⟨rfl, ⟨min delivered size, by omega, ?_, fun absurdly => nomatch absurdly⟩,
                  ?_⟩
                · dsimp only
                  rw [← List.map_take, List.take_take, Bytes.slice]
                · rw [chunks, copyFaults, readFault, writeFault, List.reduceOption_cons_of_none,
                    Option.map_some, List.reduceOption_cons_of_some]
                  rfl
            | none =>
                dsimp only
                rw [length]
                have rest (later : Conn) :
                    Copies faults content (position + size) (remaining - size) (reads + 1) later
                      (copy faults content fuel (position + size) (remaining - size) (reads + 1)
                        later (bytesSent + size)) :=
                  ih (reads + 1) later _ (by omega) (by omega)
                obtain ⟨pending, ⟨n, n_le, sent, complete⟩, failure⟩ := rest
                  ⟨conn.pending, conn.sent ++ ((content.drop position).take size).map .byte,
                    conn.writes + 1⟩
                refine ⟨pending, ⟨size + n, by omega, ?_, fun whole => ?_⟩, ?_⟩
                · rw [sent, ← Bytes.slice_append_slice, List.map_append, List.append_assoc]
                  rfl
                · have all := complete whole
                  omega
                · rw [failure, chunks, copyFaults, readFault, writeFault,
                    List.reduceOption_cons_of_none, Option.map_none,
                    List.reduceOption_cons_of_none]

end Stream

section Heads

variable {origin : Origin} {faults : Faults} {conn : Conn}

/-- The lines of a head. -/
def headLines (origin : Origin) (code : ℕ) (reason : String) (headers : List (String × String)) :
    List Item :=
  .statusLine code reason ::
    ((("Server", "asmb8-http-origin/1.0 ") :: ("Date", origin.date) :: headers).map fun header =>
      Item.header header.1 header.2) ++ [.blank]

def errorHead (origin : Origin) (code : ℕ) (message : String) : List Item :=
  headLines origin code message
    [("Connection", "close"), ("Content-Type", "text/html;charset=utf-8"),
      ("Content-Length", toString (origin.errorPage code message).length)]

variable (origin conn) in
theorem pending_sendResponse (code : ℕ) (reason : String) (headers : List (String × String)) :
    ((conn.sendResponse origin code reason).sendHeaders headers).pending ++ [.blank] =
      conn.pending ++ headLines origin code reason headers := by
  simp [Conn.sendResponse, Conn.sendHeaders, headLines]

variable {code : ℕ} {reason : String} {headers : List (String × String)}

theorem endHeaders_failed {delivered : ℕ} {error : OSErr}
    (failed : faults.write conn.writes = some (delivered, error)) :
    ((conn.sendResponse origin code reason).sendHeaders headers).endHeaders faults =
      (.error error, {
        pending := conn.pending ++ headLines origin code reason headers
        sent := conn.sent ++ (conn.pending ++ headLines origin code reason headers).take delivered
        writes := conn.writes + 1 }) := by
  have lines := pending_sendResponse origin conn code reason headers
  have same : ((conn.sendResponse origin code reason).sendHeaders headers).writes = conn.writes :=
    rfl
  simp only [Conn.endHeaders, Conn.write, same, failed, lines]
  rfl

theorem endHeaders_sent (works : faults.write conn.writes = none) :
    ((conn.sendResponse origin code reason).sendHeaders headers).endHeaders faults =
      (.ok (), {
        pending := []
        sent := conn.sent ++ (conn.pending ++ headLines origin code reason headers)
        writes := conn.writes + 1 }) := by
  have lines := pending_sendResponse origin conn code reason headers
  have same : ((conn.sendResponse origin code reason).sendHeaders headers).writes = conn.writes :=
    rfl
  simp only [Conn.endHeaders, Conn.write, same, works, lines]
  rfl

end Heads

section Answers

variable {origin : Origin} {faults : Faults} {answer : Answer}

/-- The variables when the head of an answer is written. -/
def Answer.progress : Answer → Progress
  | .missing outcome => { status := 404, outcome }
  | .unsatisfiable _ => { status := 416, outcome := .rangeNotSatisfiable }
  | .file _ _ byteRange => { status := if byteRange.isSome then 206 else 200 }

/-- The head of an answer. -/
def Answer.head (origin : Origin) : Answer → List Item
  | .missing _ => errorHead origin 404 "Not Found"
  | .unsatisfiable fileSize => headLines origin 416 (origin.phrase 416)
      [("Content-Range", "bytes */" ++ toString fileSize), ("Content-Length", "0")]
  | .file resolved fileSize byteRange =>
      let status := if byteRange.isSome then 206 else 200
      headLines origin status (origin.phrase status)
        (fileHeaders origin resolved fileSize byteRange)

/-- The number of bytes of a file that are served. -/
def bodyLength (fileSize : ℕ) (byteRange : Option ByteRange) : ℕ :=
  ((bounds fileSize byteRange).2 - (bounds fileSize byteRange).1 + 1).toNat

/-- The body an answer announces. -/
def Answer.body (origin : Origin) : Answer → Bytes
  | .missing _ => origin.errorPage 404 "Not Found"
  | .unsatisfiable _ => []
  | .file resolved fileSize byteRange =>
      (origin.content resolved).slice (bounds fileSize byteRange).1.toNat
        (bodyLength fileSize byteRange)

/-- The failures behind the head of an answer, in the order of the operations. -/
def Answer.bodyFaults (faults : Faults) : Answer → List (Option OSErr)
  | .missing _ => [(faults.write 1).map Prod.snd]
  | .unsatisfiable _ => []
  | .file _ fileSize byteRange =>
      faults.openFile :: faults.seek ::
        copyFaults faults 0 1 (chunkCount (bodyLength fileSize byteRange))

/-- The failure that ends the body of an answer. -/
def Answer.bodyFault (faults : Faults) (answer : Answer) : Option OSErr :=
  (answer.bodyFaults faults).reduceOption.head?

/-- The range of an answer lies in its file. -/
def Answer.InFile (origin : Origin) : Answer → Prop
  | .file resolved fileSize byteRange =>
      fileSize = (origin.content resolved).length ∧ ∀ found ∈ byteRange, found.InFile fileSize
  | _ => True

theorem choose_inFile {request : Request} (chosen : choose origin faults request = .ok answer) :
    answer.InFile origin := by
  unfold choose at chosen
  split at chosen
  case h_1 =>
    cases chosen
    trivial
  case h_2 resolved _ =>
    split at chosen
    case h_1 =>
      split_ifs at chosen
      cases chosen
      trivial
    case h_2 =>
      split_ifs at chosen
      · cases chosen
        trivial
      · split at chosen
        case h_1 =>
          cases chosen
          trivial
        case h_2 =>
          dsimp only at chosen
          split at chosen
          case h_1 =>
            cases chosen
            trivial
          case h_2 byteRange parsed =>
            cases chosen
            refine ⟨rfl, fun found isFound => ?_⟩
            rw [Option.mem_def.mp isFound] at parsed
            exact parseRangeHeader_inFile parsed

theorem encodable_notFound : Conn.encodable "Not Found" = true := by
  decide

/-- An answer whose head does not get through. -/
theorem send_failed {command : Command} {delivered : ℕ} {error : OSErr}
    (failed : faults.write 0 = some (delivered, error)) :
    send origin faults command answer {} =
      (.error (.os error), {
        pending := answer.head origin
        sent := (answer.head origin).take delivered
        writes := 1 }, answer.progress) := by
  cases answer with
  | missing outcome =>
      rw [send, Conn.sendError, if_neg (by rw [encodable_notFound]; exact Bool.noConfusion)]
      dsimp only
      rw [endHeaders_failed failed]
      rfl
  | unsatisfiable fileSize =>
      rw [send]
      rw [endHeaders_failed failed]
      rfl
  | file resolved fileSize byteRange =>
      rw [send]
      dsimp only
      rw [endHeaders_failed failed]
      rfl

/-- How an answer ends when this failure ends its body: a client may hang up on a file. -/
def Answer.endsWith : Answer → Option OSErr → Except Raised Unit
  | _, none => .ok ()
  | .file _ _ _, some error => if error.kind = .hangup then .ok () else .error (.os error)
  | _, some error => .error (.os error)

/-- What comes of the body of an answer. -/
structure Delivers (origin : Origin) (faults : Faults) (answer : Answer)
    (result : Except Raised Unit × Conn × Progress) : Prop where
  pending : result.2.1.pending = []
  sent : ∃ n, result.2.1.sent = answer.head origin ++ ((answer.body origin).take n).map .byte ∧
    (answer.bodyFault faults = none → (answer.body origin).length ≤ n)
  status : result.2.2.status = answer.progress.status
  failure : result.1 = answer.endsWith (answer.bodyFault faults)

theorem send_head (works : faults.write 0 = none) :
    send origin faults .head answer {} =
      (.ok (), { pending := [], sent := answer.head origin, writes := 1 }, answer.progress) := by
  cases answer with
  | missing outcome =>
      rw [send, Conn.sendError, if_neg (by rw [encodable_notFound]; exact Bool.noConfusion)]
      dsimp only
      rw [endHeaders_sent works]
      rfl
  | unsatisfiable fileSize =>
      rw [send]
      rw [endHeaders_sent works]
      rfl
  | file resolved fileSize byteRange =>
      rw [send]
      dsimp only
      rw [endHeaders_sent works]
      rfl

/-- What the streaming of a body does behind its head. -/
structure Streams (fault : Option OSErr) (body : Bytes) (head : List Item)
    (result : Except OSErr Unit × Conn × ℕ) : Prop where
  pending : result.2.1.pending = []
  sent : ∃ n, result.2.1.sent = head ++ (body.take n).map .byte ∧ (fault = none → body.length ≤ n)
  failure : result.1 = endsWith fault

theorem bounds_inFile {resolved : Path} {fileSize : ℕ} {byteRange : Option ByteRange}
    (inFile : (Answer.file resolved fileSize byteRange).InFile origin) :
    (bounds fileSize byteRange).1.toNat + bodyLength fileSize byteRange ≤
      (origin.content resolved).length := by
  rcases inFile with ⟨rfl, inFile⟩
  rcases byteRange with _ | byteRange
  · simp only [bounds, bodyLength]
    omega
  · have bounded := inFile byteRange rfl
    have first := bounded.start_nonneg
    have ordered := bounded.start_le
    have last := bounded.last_lt
    simp only [bounds, bodyLength]
    omega

variable (faults) in
theorem stream_streams {resolved : Path} {fileSize : ℕ} {byteRange : Option ByteRange}
    (inFile : (Answer.file resolved fileSize byteRange).InFile origin) (head : List Item) :
    Streams ((Answer.file resolved fileSize byteRange).bodyFault faults)
      ((Answer.file resolved fileSize byteRange).body origin) head
      (stream faults (origin.content resolved) (bounds fileSize byteRange).1
        ((bounds fileSize byteRange).2 - (bounds fileSize byteRange).1 + 1)
        { pending := [], sent := head, writes := 1 }) := by
  have within := bounds_inFile inFile
  have nothing : head = head ++ (List.take 0
      ((Answer.file resolved fileSize byteRange).body origin)).map Item.byte := by
    simp
  unfold Answer.bodyFault Answer.bodyFaults stream
  cases faults.openFile with
  | some error => exact ⟨rfl, ⟨0, nothing, fun never => nomatch never⟩, rfl⟩
  | none =>
      cases faults.seek with
      | some error => exact ⟨rfl, ⟨0, nothing, fun never => nomatch never⟩, rfl⟩
      | none =>
          have copied := copy_copies faults 0 { pending := [], sent := head, writes := 1 } 0
            (le_refl _) within
          obtain ⟨pending, ⟨n, n_le, sent, complete⟩, failure⟩ := copied
          have body : (origin.content resolved).slice (bounds fileSize byteRange).1.toNat n =
              ((Answer.file resolved fileSize byteRange).body origin).take n := by
            rw [Answer.body, Bytes.slice, Bytes.slice, List.take_take, min_eq_left n_le]
          rw [List.reduceOption_cons_of_none, List.reduceOption_cons_of_none]
          refine ⟨pending, ⟨n, sent.trans (by rw [body]), fun noFault => ?_⟩, failure⟩
          rw [noFault] at failure
          rw [complete failure, Answer.body]
          exact Bytes.length_slice .. ▸ min_le_left _ _

theorem send_get (works : faults.write 0 = none) (inFile : answer.InFile origin) :
    Delivers origin faults answer (send origin faults .get answer {}) := by
  cases answer with
  | missing outcome =>
      have page := origin.errorPage_ne_nil 404 "Not Found"
      have noPage : ¬ (Command.get = .head ∨ origin.errorPage 404 "Not Found" = []) := by
        rintro (isHead | isEmpty)
        · cases isHead
        · exact page isEmpty
      have fault : (Answer.missing outcome).bodyFault faults = (faults.write 1).map Prod.snd := by
        rw [Answer.bodyFault, Answer.bodyFaults]
        cases (faults.write 1).map Prod.snd with
        | none => rfl
        | some error => rfl
      rw [send, Conn.sendError, if_neg (by rw [encodable_notFound]; exact Bool.noConfusion)]
      dsimp only
      rw [endHeaders_sent works]
      dsimp only
      rw [if_neg noPage, Conn.write]
      dsimp only
      cases failed : faults.write 1 with
      | none =>
          rw [failed] at fault
          refine ⟨rfl, ⟨(origin.errorPage 404 "Not Found").length, ?_, fun _ => le_refl _⟩, rfl, ?_⟩
          · rw [Answer.body, List.take_length]
            rfl
          · rw [fault]
            rfl
      | some failure =>
          rcases failure with ⟨delivered, error⟩
          rw [failed] at fault
          refine ⟨rfl, ⟨delivered, ?_, fun never => ?_⟩, rfl, ?_⟩
          · rw [Answer.body, List.map_take]
            rfl
          · rw [fault] at never
            cases never
          · rw [fault]
            rfl
  | unsatisfiable fileSize =>
      rw [send, endHeaders_sent works]
      exact ⟨rfl, ⟨0, by simp [Answer.head], fun _ => le_refl _⟩, rfl, rfl⟩
  | file resolved fileSize byteRange =>
      obtain ⟨pending, sent, failure⟩ := stream_streams faults inFile
        ((Answer.file resolved fileSize byteRange).head origin)
      rw [send]
      dsimp only
      rw [endHeaders_sent works]
      dsimp only
      rw [if_neg (show Command.get ≠ .head from Command.noConfusion)]
      have start : headLines origin (if byteRange.isSome = true then 206 else 200)
          (origin.phrase (if byteRange.isSome = true then 206 else 200))
          (fileHeaders origin resolved fileSize byteRange) =
            (Answer.file resolved fileSize byteRange).head origin := rfl
      rw [List.nil_append, List.nil_append, start, Nat.zero_add]
      generalize stream faults (origin.content resolved) (bounds fileSize byteRange).1
        ((bounds fileSize byteRange).2 - (bounds fileSize byteRange).1 + 1)
        { pending := [], sent := (Answer.file resolved fileSize byteRange).head origin
          writes := 1 } =
          result at pending sent failure ⊢
      rcases result with ⟨result, conn, bytesSent⟩
      dsimp only at failure
      subst failure
      cases fault : (Answer.file resolved fileSize byteRange).bodyFault faults with
      | none =>
          refine ⟨pending, sent, rfl, ?_⟩
          rw [fault]
          rfl
      | some error =>
          rw [endsWith]
          dsimp only
          by_cases hangup : error.kind = .hangup
          · rw [if_pos hangup]
            refine ⟨pending, sent, rfl, ?_⟩
            rw [fault, Answer.endsWith, if_pos hangup]
          · rw [if_neg hangup]
            refine ⟨pending, sent, rfl, ?_⟩
            rw [fault, Answer.endsWith, if_neg hangup]

end Answers

end Asmb8Ikvm.HttpOrigin

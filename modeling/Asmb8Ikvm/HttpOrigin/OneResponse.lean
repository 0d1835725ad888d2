import Asmb8Ikvm.HttpOrigin.RangeService

/-!
# One response for a request

What a request may leave on the connection whatever fails: one head, behind it
bytes of the body it announces, and in the access log the status of that head.

The handler of a failure does not know what has been sent. It answers with a head
of its own, and logs the status of that one, when the head or the body of a
response fails; only a client that hangs up on a file is left alone.
-/

namespace Asmb8Ikvm.HttpOrigin

def Item.isStatusLine : Item → Bool
  | .statusLine _ _ => true
  | _ => false

/-- The body that is announced to a request. -/
def announced (origin : Origin) (faults : Faults) (request : Request) : Bytes :=
  match request.command with
  | .head => []
  | .get =>
      match choose origin faults request with
      | .ok answer => answer.body origin
      | .error error => origin.errorPage 500 (failureMessage origin error)

/-- A connection that has at most one head on it, with bytes of its body behind it, and a line of
the access log with the status of the head. -/
structure OneResponse (body : Bytes) (handled : Handled) : Prop where
  statusLines : handled.conn.sent.countP Item.isStatusLine ≤ 1
  blanks : handled.conn.sent.count .blank ≤ 1
  bodyOnly : ∀ before after, handled.conn.sent = before ++ .blank :: after →
    ∃ n, after = (body.take n).map .byte
  logged : ∀ code reason, .statusLine code reason ∈ handled.conn.sent →
    handled.logged.status = code

def Answer.isFile : Answer → Bool
  | .file _ _ _ => true
  | _ => false

/-- Failures that leave a response alone. A head that does not get through is lost whole, and so is
the one the failure is answered with, unless its text cannot be written; and the body of a response
is only ended by a client that hangs up on a file. -/
def LeavesAlone (origin : Origin) (faults : Faults) (request : Request) : Prop :=
  ∀ answer, choose origin faults request = .ok answer →
    match faults.write 0 with
    | some (delivered, error) =>
        delivered = 0 ∧ (Conn.encodable (failureMessage origin error) = true →
          ∃ later, faults.write 1 = some (0, later))
    | none => request.command = .get → ∀ error, answer.bodyFault faults = some error →
        answer.isFile = true ∧ error.kind = .hangup

section Wire

variable {code : ℕ} {reason : String} {headers : List (String × String)} {origin : Origin}
  {body : Bytes} {handled : Handled}

/-- The lines of a head before the blank one. -/
theorem exists_lines (origin : Origin) (code : ℕ) (reason : String)
    (headers : List (String × String)) :
    ∃ lines : List (String × String), headLines origin code reason headers =
      .statusLine code reason :: lines.map (fun line => Item.header line.1 line.2) ++ [.blank] :=
  ⟨_, rfl⟩

theorem notMem_headers (lines : List (String × String)) (item : Item)
    (other : ∀ name value, item ≠ .header name value) :
    item ∉ lines.map fun line => Item.header line.1 line.2 := by
  intro mem
  rcases List.mem_map.mp mem with ⟨line, -, rfl⟩
  exact other _ _ rfl

theorem notMem_bytes (bytes : Bytes) (item : Item) (other : ∀ value, item ≠ .byte value) :
    item ∉ bytes.map Item.byte := by
  intro mem
  rcases List.mem_map.mp mem with ⟨value, -, rfl⟩
  exact other _ rfl

/-- What was sent of a response is one response. -/
theorem oneResponse_of_prefix {head : List Item} (n : ℕ)
    (isHead : head = headLines origin code reason headers)
    (sent : handled.conn.sent <+: head ++ (body.take n).map .byte)
    (logged : handled.logged.status = code) : OneResponse body handled := by
  obtain ⟨lines, split⟩ := exists_lines origin code reason headers
  rw [isHead, split] at sent
  have noStatus : ∀ bytes : Bytes, (bytes.map Item.byte).countP Item.isStatusLine = 0 := by
    intro bytes
    rw [List.countP_eq_zero]
    intro item mem
    rcases List.mem_map.mp mem with ⟨value, -, rfl⟩
    exact Bool.noConfusion
  have noStatus' :
      (lines.map fun line => Item.header line.1 line.2).countP Item.isStatusLine = 0 := by
    rw [List.countP_eq_zero]
    intro item mem
    rcases List.mem_map.mp mem with ⟨line, -, rfl⟩
    exact Bool.noConfusion
  have noBlank := notMem_headers lines .blank (by simp)
  have noBlank'' : Item.blank ∉
      Item.statusLine code reason :: lines.map fun line => Item.header line.1 line.2 := by
    rw [List.mem_cons, not_or]
    exact ⟨by simp, noBlank⟩
  have noBlank' := notMem_bytes (body.take n) .blank (by simp)
  refine ⟨?_, ?_, ?_, ?_⟩
  · refine (sent.sublist.countP_le).trans ?_
    rw [List.countP_append, List.countP_append, noStatus, List.countP_cons, noStatus',
      if_pos (show (Item.statusLine code reason).isStatusLine = true from rfl)]
    decide
  · refine (sent.sublist.count_le .blank).trans ?_
    rw [List.count_append, List.count_append, List.count_eq_zero.mpr noBlank',
      List.count_eq_zero.mpr noBlank'']
    decide
  · intro before after isSent
    rcases sent with ⟨rest, whole⟩
    have aligned : (.statusLine code reason :: lines.map fun line => Item.header line.1 line.2) ++
        .blank :: (body.take n).map .byte = before ++ .blank :: (after ++ rest) := by
      rw [isSent] at whole
      simpa using whole.symm
    rw [List.append_cons_inj_of_notMem noBlank'' noBlank'] at aligned
    have isPrefix : after <+: (body.take n).map .byte := ⟨rest, aligned.2.2.symm⟩
    refine ⟨min after.length n, ?_⟩
    rw [List.prefix_iff_eq_take.mp isPrefix, ← List.map_take, List.take_take]
    simp
  · intro other text mem
    have inside := sent.subset mem
    simp only [List.mem_append, List.mem_cons, List.not_mem_nil, or_false, reduceCtorEq,
      Item.statusLine.injEq, List.mem_map, exists_false, and_false] at inside
    rw [logged, inside.1]

end Wire

section Failures

variable {origin : Origin} {faults : Faults} {command : Command} {code : ℕ} {message : String}
  {conn : Conn}

theorem sendError_failed {delivered : ℕ} {error : OSErr} (plain : Conn.encodable message = true)
    (failed : faults.write conn.writes = some (delivered, error)) :
    (conn.sendError origin faults command code message).2.sent =
      conn.sent ++ (conn.pending ++ errorHead origin code message).take delivered := by
  rw [Conn.sendError, if_neg (by rw [plain]; exact Bool.noConfusion)]
  dsimp only
  rw [endHeaders_failed failed]
  rfl

theorem sendError_sent (origin : Origin) (command : Command) (code : ℕ)
    (plain : Conn.encodable message = true)
    (works : faults.write conn.writes = none) :
    ∃ n, (conn.sendError origin faults command code message).2.sent =
      conn.sent ++ (conn.pending ++ errorHead origin code message) ++
        ((if command = .head then [] else origin.errorPage code message).take n).map .byte := by
  rw [Conn.sendError, if_neg (by rw [plain]; exact Bool.noConfusion)]
  dsimp only
  rw [endHeaders_sent works]
  dsimp only
  by_cases isHead : command = .head
  · refine ⟨0, ?_⟩
    rw [if_pos (.inl isHead), List.take_zero, List.map_nil, List.append_nil]
    rfl
  · have noPage : ¬ (command = .head ∨ origin.errorPage code message = []) := by
      rw [not_or]
      exact ⟨isHead, origin.errorPage_ne_nil code message⟩
    rw [if_neg noPage, if_neg isHead, Conn.write]
    dsimp only
    cases faults.write (conn.writes + 1) with
    | none =>
        refine ⟨(origin.errorPage code message).length, ?_⟩
        rw [List.take_length]
        rfl
    | some failure =>
        refine ⟨failure.1, ?_⟩
        rw [List.map_take]
        rfl

theorem sendError_unencodable (broken : Conn.encodable message = false) :
    conn.sendError origin faults command code message = (.error .unicodeEncodeError, conn) := by
  rw [Conn.sendError, if_pos broken]

/-- The handler of a failure takes nothing back. -/
theorem prefix_sendError (origin : Origin) (faults : Faults) (command : Command) (code : ℕ)
    (message : String) (conn : Conn) :
    conn.sent <+: (conn.sendError origin faults command code message).2.sent := by
  cases plain : Conn.encodable message with
  | false =>
      rw [sendError_unencodable plain]
  | true =>
      cases written : faults.write conn.writes with
      | some failure =>
          rcases failure with ⟨delivered, error⟩
          rw [sendError_failed plain written]
          exact List.prefix_append _ _
      | none =>
          obtain ⟨n, sent⟩ := sendError_sent origin command code plain written
          rw [sent, List.append_assoc]
          exact List.prefix_append _ _

end Failures

section Handling

variable {origin : Origin} {faults : Faults} {request : Request} {answer : Answer}

/-- What is left of an answer that no failure has ended. -/
theorem handle_ended {conn : Conn} {progress : Progress}
    (chosen : choose origin faults request = .ok answer)
    (ended : send origin faults request.command answer {} = (.ok (), conn, progress)) :
    (handle origin faults request).conn = conn ∧
      (handle origin faults request).logged.status = progress.status := by
  rw [handle, chosen]
  dsimp only
  rw [ended, recover]
  · exact ⟨rfl, rfl⟩
  · intro error same
    cases same

/-- What is left of an answer that a failure has ended. -/
theorem handle_failed {conn : Conn} {progress : Progress} {error : OSErr}
    (chosen : choose origin faults request = .ok answer)
    (ended : send origin faults request.command answer {} = (.error (.os error), conn, progress)) :
    (handle origin faults request).conn = (conn.sendError origin faults request.command 500
        (failureMessage origin error)).2 ∧
      (handle origin faults request).logged.status = 500 := by
  rw [handle, chosen]
  dsimp only
  rw [ended, recover]
  dsimp only
  exact ⟨rfl, rfl⟩

/-- What is left of a request for which `is_file` fails. -/
theorem handle_unchosen {error : OSErr} (chosen : choose origin faults request = .error error) :
    (handle origin faults request).conn = (({} : Conn).sendError origin faults request.command 500
        (failureMessage origin error)).2 ∧
      (handle origin faults request).logged.status = 500 := by
  rw [handle, chosen]
  dsimp only
  rw [recover]
  dsimp only
  exact ⟨rfl, rfl⟩

/-- The first line of a head. -/
theorem exists_statusLine (origin : Origin) (answer : Answer) :
    ∃ reason headers, answer.head origin = headLines origin answer.progress.status reason headers ∧
      answer.progress.status ≠ 500 := by
  cases answer with
  | missing outcome => exact ⟨_, _, rfl, show 404 ≠ 500 by decide⟩
  | unsatisfiable fileSize => exact ⟨_, _, rfl, show 416 ≠ 500 by decide⟩
  | file resolved fileSize byteRange =>
      refine ⟨_, _, rfl, ?_⟩
      rw [Answer.progress]
      dsimp only
      split_ifs <;> decide

/-- A status line is on the connection and another status in the log. -/
theorem not_oneResponse {body : Bytes} (answer : Answer)
    (failed : (handle origin faults request).logged.status = 500)
    (sent : ∃ reason, .statusLine answer.progress.status reason ∈
      (handle origin faults request).conn.sent) :
    ¬ OneResponse body (handle origin faults request) := by
  intro one
  obtain ⟨reason, mem⟩ := sent
  obtain ⟨-, -, -, different⟩ := exists_statusLine origin answer
  exact different (one.logged _ _ mem ▸ failed)

/-- The first item of a head is on the connection when anything of it is. -/
theorem exists_mem_take (origin : Origin) (answer : Answer) (rest : List Item) {size : ℕ}
    (positive : 0 < size) :
    ∃ reason, .statusLine answer.progress.status reason ∈
      (answer.head origin ++ rest).take size := by
  obtain ⟨reason, headers, split, -⟩ := exists_statusLine origin answer
  obtain ⟨lines, split'⟩ := exists_lines origin answer.progress.status reason headers
  obtain ⟨size, rfl⟩ := Nat.exists_eq_succ_of_ne_zero positive.ne'
  refine ⟨reason, ?_⟩
  rw [split, split', List.cons_append, List.cons_append, List.take_succ_cons]
  exact List.mem_cons_self ..

/-- A failure the request is answered with. -/
theorem oneResponse_unchosen {error : OSErr}
    (chosen : choose origin faults request = .error error) :
    OneResponse (announced origin faults request) (handle origin faults request) := by
  obtain ⟨conn, logged⟩ := handle_unchosen chosen
  have page : announced origin faults request =
      if request.command = .head then []
      else origin.errorPage 500 (failureMessage origin error) := by
    rw [announced, chosen]
    cases request.command with
    | head => rfl
    | get => rfl
  have sent : ∃ n, (handle origin faults request).conn.sent <+:
      errorHead origin 500 (failureMessage origin error) ++
        ((announced origin faults request).take n).map .byte := by
    rw [conn]
    cases plain : Conn.encodable (failureMessage origin error) with
    | false =>
        rw [sendError_unencodable plain]
        exact ⟨0, List.nil_prefix⟩
    | true =>
        cases written : faults.write ({} : Conn).writes with
        | some failure =>
            rcases failure with ⟨delivered, _⟩
            rw [sendError_failed plain written]
            exact ⟨0, (List.take_prefix _ _).trans (List.prefix_append _ _)⟩
        | none =>
            obtain ⟨n, sent⟩ := sendError_sent origin request.command 500 plain written
            rw [sent, page]
            exact ⟨n, List.prefix_refl _⟩
  obtain ⟨n, sent⟩ := sent
  exact oneResponse_of_prefix n rfl sent logged

/-- Nothing has been sent. -/
theorem oneResponse_of_nil {body : Bytes} {handled : Handled} (nothing : handled.conn.sent = []) :
    OneResponse body handled := by
  refine ⟨?_, ?_, ?_, ?_⟩
  · rw [nothing]
    decide
  · rw [nothing]
    decide
  · intro before after split
    rw [nothing] at split
    exact absurd split (by simp)
  · intro code reason mem
    rw [nothing] at mem
    cases mem

/-- The connection behind a head that did not get through. -/
def behindHead (origin : Origin) (answer : Answer) (delivered : ℕ) : Conn where
  pending := answer.head origin
  sent := (answer.head origin).take delivered
  writes := 1

/-- When the head of an answer does not get through. -/
theorem oneResponse_failed {delivered : ℕ} {error : OSErr}
    (chosen : choose origin faults request = .ok answer)
    (failed : faults.write 0 = some (delivered, error)) :
    OneResponse (announced origin faults request) (handle origin faults request) ↔
      delivered = 0 ∧ (Conn.encodable (failureMessage origin error) = true →
        ∃ later, faults.write 1 = some (0, later)) := by
  obtain ⟨conn, logged⟩ := handle_failed chosen (send_failed failed)
  have kept := prefix_sendError origin faults request.command 500 (failureMessage origin error)
    (behindHead origin answer delivered)
  rw [behindHead, ← conn] at kept
  have sentAgain : ∀ later, faults.write (behindHead origin answer delivered).writes = some later →
      Conn.encodable (failureMessage origin error) = true →
      (handle origin faults request).conn.sent = (answer.head origin).take delivered ++
        (answer.head origin ++
          errorHead origin 500 (failureMessage origin error)).take later.1 := by
    intro later written plain
    rw [conn]
    exact sendError_failed plain written
  refine ⟨fun one => ?_, ?_⟩
  · have lost : delivered = 0 := by
      by_contra positive
      obtain ⟨reason, mem⟩ := exists_mem_take origin answer [] (Nat.pos_of_ne_zero positive)
      rw [List.append_nil] at mem
      exact not_oneResponse answer logged ⟨reason, kept.subset mem⟩ one
    refine ⟨lost, fun plain => ?_⟩
    cases written : faults.write (behindHead origin answer delivered).writes with
    | none =>
        exfalso
        obtain ⟨n, sent⟩ := sendError_sent origin request.command 500 plain written
        rw [behindHead, ← conn] at sent
        obtain ⟨reason, mem⟩ := exists_mem_take origin answer [] (Nat.succ_pos
          (answer.head origin).length)
        rw [List.append_nil, List.take_of_length_le (Nat.le_succ _)] at mem
        refine not_oneResponse answer logged ⟨reason, ?_⟩ one
        rw [sent]
        exact List.mem_append_left _ (List.mem_append_right _ (List.mem_append_left _ mem))
    | some later =>
        rcases later with ⟨more, later⟩
        have lostToo : more = 0 := by
          by_contra positive
          obtain ⟨reason, mem⟩ := exists_mem_take origin answer
            (errorHead origin 500 (failureMessage origin error)) (Nat.pos_of_ne_zero positive)
          refine not_oneResponse answer logged ⟨reason, ?_⟩ one
          rw [sentAgain _ written plain]
          exact List.mem_append_right _ mem
        exact ⟨later, lostToo ▸ written⟩
  · rintro ⟨rfl, lost⟩
    refine oneResponse_of_nil ?_
    cases plain : Conn.encodable (failureMessage origin error) with
    | false =>
        rw [conn, sendError_unencodable plain]
        rfl
    | true =>
        obtain ⟨later, written⟩ := lost plain
        rw [sentAgain _ written plain]
        rfl

theorem endsWith_cases (answer : Answer) (fault : Option OSErr) :
    (answer.endsWith fault = .ok () ∧
        ∀ error, fault = some error → answer.isFile = true ∧ error.kind = .hangup) ∨
      ∃ error, answer.endsWith fault = .error (.os error) ∧ fault = some error ∧
        ¬ (answer.isFile = true ∧ error.kind = .hangup) := by
  rcases fault with _ | error
  · cases answer <;> exact .inl ⟨rfl, fun error never => nomatch never⟩
  · cases answer with
    | missing outcome => exact .inr ⟨error, rfl, rfl, fun both => Bool.noConfusion both.1⟩
    | unsatisfiable fileSize => exact .inr ⟨error, rfl, rfl, fun both => Bool.noConfusion both.1⟩
    | file resolved fileSize byteRange =>
        by_cases hangup : error.kind = .hangup
        · refine .inl ⟨if_pos hangup, fun other same => ?_⟩
          cases same
          exact ⟨rfl, hangup⟩
        · exact .inr ⟨error, if_neg hangup, rfl, fun both => hangup both.2⟩

/-- When the head of an answer gets through. -/
theorem oneResponse_sent (chosen : choose origin faults request = .ok answer)
    (works : faults.write 0 = none) :
    OneResponse (announced origin faults request) (handle origin faults request) ↔
      (request.command = .get → ∀ error, answer.bodyFault faults = some error →
        answer.isFile = true ∧ error.kind = .hangup) := by
  obtain ⟨reason, headers, isHead, different⟩ := exists_statusLine origin answer
  cases isGet : request.command with
  | head =>
      have ended : send origin faults request.command answer {} = _ := isGet ▸ send_head works
      obtain ⟨conn, logged⟩ := handle_ended chosen ended
      refine ⟨fun _ never => (nomatch never), fun _ => ?_⟩
      refine oneResponse_of_prefix 0 isHead ?_ logged
      rw [conn, List.take_zero, List.map_nil, List.append_nil]
  | get =>
      obtain ⟨-, ⟨n, sent, -⟩, status, ended⟩ := send_get works (choose_inFile chosen)
      have body : announced origin faults request = answer.body origin := by
        rw [announced, isGet, chosen]
      have performed : send origin faults request.command answer {} =
        send origin faults .get answer {} := by rw [isGet]
      generalize send origin faults .get answer {} = result at sent status ended performed
      rcases result with ⟨result, conn, progress⟩
      dsimp only at sent status ended
      subst ended
      rcases endsWith_cases answer (answer.bodyFault faults) with ⟨ok, allowed⟩ |
        ⟨error, failure, fault, forbidden⟩
      · rw [ok] at performed
        obtain ⟨isConn, logged⟩ := handle_ended chosen performed
        refine ⟨fun _ _ => allowed, fun _ => ?_⟩
        refine oneResponse_of_prefix n isHead ?_ (logged.trans status)
        rw [isConn, sent, body]
      · rw [failure] at performed
        obtain ⟨isConn, logged⟩ := handle_failed chosen performed
        have kept := prefix_sendError origin faults request.command 500
          (failureMessage origin error) conn
        rw [← isConn] at kept
        obtain ⟨reason, mem⟩ := exists_mem_take origin answer [] (Nat.succ_pos
          (answer.head origin).length)
        rw [List.append_nil, List.take_of_length_le (Nat.le_succ _)] at mem
        refine ⟨fun one => ?_, fun allowed => absurd (allowed rfl error fault) forbidden⟩
        refine absurd one (not_oneResponse answer logged ⟨reason, kept.subset ?_⟩)
        rw [sent]
        exact List.mem_append_left _ mem

end Handling

/-- When a request gets one response. -/
theorem oneResponse_iff (origin : Origin) (faults : Faults) (request : Request) :
    OneResponse (announced origin faults request) (handle origin faults request) ↔
      LeavesAlone origin faults request := by
  rw [LeavesAlone]
  cases chosen : choose origin faults request with
  | error error =>
      exact ⟨fun _ answer never => (nomatch never), fun _ => oneResponse_unchosen chosen⟩
  | ok answer =>
      simp only [Except.ok.injEq, forall_eq']
      cases written : faults.write 0 with
      | some failure =>
          rcases failure with ⟨delivered, error⟩
          exact oneResponse_failed chosen written
      | none => exact oneResponse_sent chosen written

/-- A disk that fails at the first read of a file. -/
def failingRead : Faults where
  read _ := some { kind := .other, text := "[Errno 5] Input/output error" }

def imageRequest : Request where
  command := .get
  target := "/image".toList
  range := none
  selfTest := false
  client := "192.0.2.7"

/-- The error page of a failed read is sent as the body of the file. -/
theorem not_oneResponse_failingRead :
    ¬ OneResponse (announced imageOrigin failingRead imageRequest)
      (handle imageOrigin failingRead imageRequest) := by
  have chosen : choose imageOrigin failingRead imageRequest =
      .ok (.file ["srv".toList, "image".toList] 10 none) := by
    rw [choose, show resolveWithinRoot imageOrigin.tree imageOrigin.root imageRequest.target = _
      from resolve_image]
    rfl
  have works : failingRead.write 0 = none := rfl
  have fault : (Answer.file ["srv".toList, "image".toList] 10 none).bodyFault failingRead =
      some { kind := .other, text := "[Errno 5] Input/output error" } := rfl
  rw [oneResponse_sent chosen works]
  intro alone
  exact absurd (alone rfl _ fault).2 (by decide)

end Asmb8Ikvm.HttpOrigin

import Asmb8Ikvm.HttpOrigin.Handler

/-!
# The service of ranges

A readable file as a client sees it: every answer to a request for it is the whole
file, a part of the file that its headers name, or nothing, and the parts of a
partition put together are the file.
-/

namespace Asmb8Ikvm.HttpOrigin

open PyText

/-- A response on the wire. -/
structure Response where
  code : ℕ
  reason : String
  headers : List (String × String)
  body : Bytes

namespace Response

def items (response : Response) : List Item :=
  .statusLine response.code response.reason ::
    response.headers.map (fun header => .header header.1 header.2) ++ [.blank] ++
    response.body.map .byte

def header (name : String) (response : Response) : Option String :=
  response.headers.lookup name

/-- What a response may say about a file. -/
inductive Serves (content : Bytes) (response : Response) : Prop where
  | whole (status : response.code = 200) (body : response.body = content)
      (length : response.header "Content-Length" = some (toString content.length))
  | part (first last : ℕ) (ordered : first ≤ last) (inFile : last < content.length)
      (status : response.code = 206)
      (range : response.header "Content-Range" = some ("bytes " ++ toString first ++ "-" ++
        toString last ++ "/" ++ toString content.length))
      (length : response.header "Content-Length" = some (toString (last - first + 1)))
      (body : response.body = content.slice first (last - first + 1))
  | unsatisfiable (status : response.code = 416) (body : response.body = [])

end Response

/-- The bytes among the items of a connection. -/
def bodyBytes (items : List Item) : Bytes :=
  items.filterMap fun
    | .byte value => some value
    | _ => none

/-- Ranges that follow one another from a position up to another one. -/
inductive Tiles : ℕ → ℕ → List (ℕ × ℕ) → Prop where
  | nil {stop : ℕ} : Tiles stop stop []
  | cons {first last stop : ℕ} {ranges : List (ℕ × ℕ)} (ordered : first ≤ last)
      (later : Tiles (last + 1) stop ranges) : Tiles first stop ((first, last) :: ranges)

/-- A target under which a file is served. -/
structure ServesRanges (origin : Origin) (target : List Char) (content : Bytes) : Prop where
  answers : ∀ request : Request, request.command = .get → request.target = target →
    ∃ response : Response, (handle origin {} request).conn.sent = response.items ∧
      response.Serves content ∧
      response.header "Content-Length" = some (toString response.body.length)
  partition : ∀ request : Request, request.command = .get → request.target = target →
    ∀ ranges, Tiles 0 content.length ranges →
      (ranges.flatMap fun range => bodyBytes (handle origin {}
        { request with range := some (rangeText range.1 range.2) }).conn.sent) = content

section Service

variable {origin : Origin} {request : Request} {resolved : Paths.Path}

theorem choose_file (isFound : resolveWithinRoot origin.tree origin.root request.target =
      some resolved) (isFile : origin.tree.isFile resolved = true) :
    choose origin {} request =
      match parseRangeHeader origin.table request.range (origin.content resolved).length with
      | .error .raised => .ok (.unsatisfiable (origin.content resolved).length)
      | .ok byteRange => .ok (.file resolved (origin.content resolved).length byteRange) := by
  rw [choose, isFound]
  dsimp only
  exact if_neg (by rw [isFile]; exact Bool.noConfusion)

theorem copyFaults_none (reads writes chunks : ℕ) :
    (copyFaults {} reads writes chunks).reduceOption = [] := by
  induction chunks generalizing reads writes with
  | zero => rfl
  | succ chunks ih =>
      rw [copyFaults, List.reduceOption_cons_of_none, Option.map_none,
        List.reduceOption_cons_of_none, ih]

theorem bodyFault_none (answer : Answer) : answer.bodyFault {} = none := by
  cases answer with
  | missing outcome => rfl
  | unsatisfiable fileSize => rfl
  | file resolved fileSize byteRange =>
      rw [Answer.bodyFault, Answer.bodyFaults, List.reduceOption_cons_of_none,
        List.reduceOption_cons_of_none, copyFaults_none]
      rfl

/-- Without failures an answer is sent whole. -/
theorem sent_handle {answer : Answer} (isGet : request.command = .get)
    (chosen : choose origin {} request = .ok answer) :
    (handle origin {} request).conn.sent =
      answer.head origin ++ (answer.body origin).map .byte := by
  have works : ({} : Faults).write 0 = none := rfl
  obtain ⟨-, ⟨n, sent, complete⟩, -, ended⟩ := send_get works (choose_inFile chosen)
  rw [bodyFault_none] at complete ended
  rw [List.take_of_length_le (complete rfl)] at sent
  rw [handle, chosen]
  dsimp only
  rw [isGet]
  generalize send origin {} .get answer {} = result at sent ended ⊢
  rcases result with ⟨result, conn, progress⟩
  dsimp only [Answer.endsWith] at ended
  subst ended
  exact sent

/-- The bytes behind a head are the body. -/
theorem bodyBytes_append (code : ℕ) (reason : String) (headers : List (String × String))
    (body : Bytes) :
    bodyBytes (headLines origin code reason headers ++ body.map .byte) = body := by
  have noBytes : bodyBytes (headLines origin code reason headers) = [] := by
    rw [bodyBytes, headLines, List.filterMap_eq_nil_iff]
    intro item mem
    simp only [List.mem_append, List.mem_cons, List.mem_map, List.not_mem_nil, or_false] at mem
    rcases mem with (rfl | ⟨header, -, rfl⟩) | rfl
    · rfl
    · rfl
    · rfl
  have bytes : bodyBytes (body.map .byte) = body := by
    rw [bodyBytes, List.filterMap_map]
    exact List.filterMap_some
  rw [bodyBytes] at noBytes bytes ⊢
  rw [List.filterMap_append, noBytes, bytes, List.nil_append]

theorem bodyBytes_handle {answer : Answer} (isGet : request.command = .get)
    (chosen : choose origin {} request = .ok answer) :
    bodyBytes (handle origin {} request).conn.sent = answer.body origin := by
  rw [sent_handle isGet chosen]
  cases answer with
  | missing outcome => exact bodyBytes_append ..
  | unsatisfiable fileSize => exact bodyBytes_append ..
  | file resolved fileSize byteRange => exact bodyBytes_append ..

/-- A response with a file or a part of it. -/
def fileResponse (origin : Origin) (resolved : Paths.Path) (code : ℕ)
    (byteRange : Option ByteRange) (body : Bytes) : Response where
  code
  reason := origin.phrase code
  headers := ("Server", "asmb8-http-origin/1.0 ") :: ("Date", origin.date) ::
    fileHeaders origin resolved (origin.content resolved).length byteRange
  body

theorem serves_whole (origin : Origin) (resolved : Paths.Path) :
    (fileResponse origin resolved 200 none (origin.content resolved)).Serves
        (origin.content resolved) ∧
      (Answer.file resolved (origin.content resolved).length none).body origin =
        origin.content resolved ∧
      (fileResponse origin resolved 200 none (origin.content resolved)).header "Content-Length" =
        some (toString (origin.content resolved).length) := by
  have size : ((origin.content resolved).length : ℤ) - 1 - 0 + 1 =
      ((origin.content resolved).length : ℕ) := by
    omega
  have length : (fileResponse origin resolved 200 none (origin.content resolved)).header
      "Content-Length" = some (toString (origin.content resolved).length) := by
    have found : (fileResponse origin resolved 200 none (origin.content resolved)).header
        "Content-Length" = some (toString (((origin.content resolved).length : ℤ) - 1 - 0 + 1)) :=
      rfl
    rw [found, size]
    rfl
  refine ⟨.whole rfl rfl length, ?_, length⟩
  rw [Answer.body, bodyLength, bounds, size, Int.toNat_natCast]
  exact Bytes.slice_of_le (Nat.le_add_left _ _)

theorem serves_part {first last : ℕ} (ordered : first ≤ last)
    (inFile : last < (origin.content resolved).length) :
    let part := (origin.content resolved).slice first (last - first + 1)
    let response := fileResponse origin resolved 206 (some { start := first, last }) part
    response.Serves (origin.content resolved) ∧
      (Answer.file resolved (origin.content resolved).length (some { start := first, last })).body
        origin = part ∧
      response.header "Content-Length" = some (toString part.length) := by
  intro part response
  have size : (last : ℤ) - first + 1 = ((last - first + 1 : ℕ) : ℤ) := by
    omega
  have partLength : part.length = last - first + 1 := by
    rw [Bytes.length_slice]
    omega
  have length : response.header "Content-Length" = some (toString (last - first + 1)) := by
    have found : response.header "Content-Length" = some (toString ((last : ℤ) - first + 1)) := rfl
    rw [found, size]
    rfl
  refine ⟨.part first last ordered inFile rfl rfl length rfl, ?_, by rw [partLength, length]⟩
  rw [Answer.body, bodyLength, bounds, size, Int.toNat_natCast, Int.toNat_natCast]

/-- The answer to a request for a file. -/
theorem exists_response (isGet : request.command = .get)
    (isFound : resolveWithinRoot origin.tree origin.root request.target = some resolved)
    (isFile : origin.tree.isFile resolved = true) :
    ∃ response : Response, (handle origin {} request).conn.sent = response.items ∧
      response.Serves (origin.content resolved) ∧
      response.header "Content-Length" = some (toString response.body.length) := by
  have chosen := choose_file isFound isFile
  cases parsed : parseRangeHeader origin.table request.range (origin.content resolved).length with
  | error notSatisfiable =>
      rw [parsed] at chosen
      rw [sent_handle isGet chosen]
      have none : some "0" = some (toString (0 : ℕ)) := by decide
      exact ⟨{
        code := 416
        reason := origin.phrase 416
        headers := [("Server", "asmb8-http-origin/1.0 "), ("Date", origin.date),
          ("Content-Range", "bytes */" ++ toString (origin.content resolved).length),
          ("Content-Length", "0")]
        body := [] }, rfl, .unsatisfiable rfl rfl, none⟩
  | ok byteRange =>
      rw [parsed] at chosen
      rw [sent_handle isGet chosen]
      rcases byteRange with _ | ⟨start, last⟩
      · obtain ⟨serves, body, length⟩ := serves_whole origin resolved
        refine ⟨_, ?_, serves, length⟩
        rw [body]
        rfl
      · have bounded := parseRangeHeader_inFile parsed
        obtain ⟨first, rfl⟩ := Int.eq_ofNat_of_zero_le bounded.start_nonneg
        obtain ⟨last, rfl⟩ := Int.eq_ofNat_of_zero_le (bounded.start_nonneg.trans bounded.start_le)
        obtain ⟨serves, body, length⟩ := serves_part (Int.ofNat_le.mp bounded.start_le)
          (Int.ofNat_lt.mp bounded.last_lt)
        refine ⟨_, ?_, serves, length⟩
        rw [body]
        rfl

/-- The body of the answer to a request for a range. -/
theorem bodyBytes_range {first last : ℕ} (isGet : request.command = .get)
    (isFound : resolveWithinRoot origin.tree origin.root request.target = some resolved)
    (isFile : origin.tree.isFile resolved = true) (isRange : request.range = rangeText first last)
    (ordered : first ≤ last) (inFile : last < (origin.content resolved).length) :
    bodyBytes (handle origin {} request).conn.sent =
      (origin.content resolved).slice first (last - first + 1) := by
  have chosen := choose_file isFound isFile
  rw [isRange, parseRangeHeader_rangeText ordered inFile (origin.content_lt resolved)] at chosen
  rw [bodyBytes_handle isGet chosen]
  exact (serves_part ordered inFile).2.1

theorem Tiles.le {start stop : ℕ} {ranges : List (ℕ × ℕ)} (tiles : Tiles start stop ranges) :
    start ≤ stop := by
  induction tiles with
  | nil => exact le_refl _
  | cons ordered later ih => omega

/-- The parts of a partition make up what lies between its ends. -/
theorem Tiles.flatMap_slice (content : Bytes) {start stop : ℕ} {ranges : List (ℕ × ℕ)}
    (tiles : Tiles start stop ranges) :
    (ranges.flatMap fun range => content.slice range.1 (range.2 - range.1 + 1)) =
      content.slice start (stop - start) := by
  induction tiles with
  | nil => simp [Bytes.slice]
  | @cons first last stop ranges ordered later ih =>
      have bounded := later.le
      rw [List.flatMap_cons, ih, show last + 1 = first + (last - first + 1) by omega,
        Bytes.slice_append_slice]
      congr 1
      omega

theorem Tiles.mem {start stop : ℕ} {ranges : List (ℕ × ℕ)} (tiles : Tiles start stop ranges) :
    ∀ range ∈ ranges, range.1 ≤ range.2 ∧ range.2 < stop := by
  induction tiles with
  | nil => simp
  | cons ordered later ih =>
      rw [List.forall_mem_cons]
      exact ⟨⟨ordered, later.le⟩, ih⟩

/-- A file is served in ranges under every target that leads to it. -/
theorem servesRanges (origin : Origin) (target : List Char) (resolved : Paths.Path)
    (isFound : resolveWithinRoot origin.tree origin.root target = some resolved)
    (isFile : origin.tree.isFile resolved = true) :
    ServesRanges origin target (origin.content resolved) := by
  refine ⟨?_, ?_⟩
  · rintro request isGet rfl
    exact exists_response isGet isFound isFile
  · rintro request isGet rfl ranges tiles
    have parts := tiles.flatMap_slice (origin.content resolved)
    have served : ∀ range ∈ ranges, bodyBytes (handle origin {}
        { request with range := some (rangeText range.1 range.2) }).conn.sent =
          (origin.content resolved).slice range.1 (range.2 - range.1 + 1) := by
      intro range mem
      obtain ⟨ordered, inFile⟩ := tiles.mem range mem
      exact bodyBytes_range isGet isFound isFile rfl ordered inFile
    rw [List.flatMap_congr served, parts, Bytes.slice_of_le (by omega), List.drop_zero]

/-- `/srv/image`, of ten bytes. -/
def imageOrigin : Origin where
  tree := {
    link _ := none
    isFile path := path = ["srv".toList, "image".toList]
    maxLinks := 40
    proper path isFile name mem := by
      rw [decide_eq_true_eq] at isFile
      subst isFile
      rcases List.mem_pair.mp mem with rfl | rfl
      · exact ⟨⟨by decide, by decide, by decide⟩, by decide, by decide⟩
      · exact ⟨⟨by decide, by decide, by decide⟩, by decide, by decide⟩ }
  root := ["srv".toList]
  content _ := [0, 1, 2, 3, 4, 5, 6, 7, 8, 9]
  content_lt _ := by decide
  guessType _ := none
  phrase code := if code = 200 then "OK" else "Partial Content"
  errorPage _ _ := [60, 33]
  errorPage_ne_nil _ _ := by decide
  date := "Thu, 01 Jan 2026 00:00:00 GMT"
  now := "2026-01-01T00:00:00Z"
  table := asciiTable

theorem resolve_image :
    resolveWithinRoot imageOrigin.tree imageOrigin.root "/image".toList =
      some ["srv".toList, "image".toList] := by
  decide +kernel

theorem servesRanges_image :
    ServesRanges imageOrigin "/image".toList [0, 1, 2, 3, 4, 5, 6, 7, 8, 9] :=
  servesRanges imageOrigin _ ["srv".toList, "image".toList] resolve_image (by decide)

end Service

end Asmb8Ikvm.HttpOrigin

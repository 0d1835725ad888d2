import Asmb8Ikvm.Lib.Loop
import Asmb8Ikvm.Asp.Tls

/-!
# The HTTP client and its retries

The request plumbing of `AspClient`: one attempt, the retry loop around it, and
the three operations that change something on the BMC. The outcomes of the
attempts are given in advance as an infinite sequence, so a statement about
every sequence is a statement about every behaviour of the network.

An attempt that ends in a read timeout, or in a connection error whose texts
speak of an aborted connection, may have been processed by the peer. The retry
loop is the same for reads and for mutations, and these are exactly the outcomes
it retries.
-/

namespace Asmb8Ikvm.Asp

/-- What one call of `requests.Session.request` ends in. A connection error has the texts
of the exception and of the exceptions it is chained to. -/
inductive Outcome where
  | response (text : String)
  | connectTimeout
  | sslError (text : String)
  | readTimeout
  | connectionError (text : String) (causes : List String)
deriving DecidableEq, Repr

/-- `_connection_error_is_post_connect`, on the texts of the exception chain. -/
def connectionErrorIsPostConnect (chain : List String) : Bool :=
  let text := PyText.lower (" ".intercalate chain).toList
  ["connection aborted", "connection reset", "remote end closed connection",
    "broken pipe"].any fun marker => PyText.isIn marker.toList text

/-- The request has been transmitted and no response has come back. -/
def Outcome.uncertain : Outcome → Bool
  | .readTimeout => true
  | .connectionError text causes => connectionErrorIsPostConnect (text :: causes)
  | _ => false

/-- The peer may have processed the request. -/
def Outcome.mayBeProcessed : Outcome → Bool
  | .response _ => true
  | outcome => outcome.uncertain

/-- The arguments of `requests.Session.request`. -/
structure Request where
  method : String
  url : String
  headers : List (String × String)
  data : Option (List (String × String))
  params : Option (List (String × String))
deriving DecidableEq, Repr

/-- The network: the outcomes of all attempts, and the attempts made so far. -/
structure Http where
  outcomes : ℕ → Outcome
  attempts : List Request := []

def Http.request (request : Request) (http : Http) : Outcome × Http :=
  (http.outcomes http.attempts.length, { http with attempts := http.attempts ++ [request] })

def defaultPort : ℕ := 443

/-- `AspClient`. The retry budget is not negative. -/
structure AspClient where
  host : String
  port : ℕ := defaultPort
  username : String := "admin"
  password : String
  useTls : Bool := true
  maxRetries : ℕ := 2
  policy : TlsTrustPolicy := {}
  sessionCookie : Option String := none
  csrfToken : Option String := none
deriving DecidableEq, Repr

/-- What leaves `_send_once` other than a response: an exception, or the internal marker
`_TransientBusy`. -/
inductive SendFault where
  | raised (error : IkvmError)
  | transientBusy
deriving DecidableEq, Repr

namespace AspClient

def init (host : String) (port : ℕ) (username password : String) (useTls validateCerts : Bool)
    (caPath tlsFingerprint : Option String) (allowInsecureTransport : Bool) (maxRetries : ℤ) :
    Except Exn AspClient := do
  enforceTransportPolicy useTls allowInsecureTransport
  let policy ← TlsTrustPolicy.create validateCerts caPath tlsFingerprint
  .ok {
    host
    port
    username
    password
    useTls
    maxRetries := (max 0 maxRetries).toNat
    policy }

def endpoint (client : AspClient) : String :=
  client.host ++ ":" ++ toString client.port

def baseUrl (client : AspClient) : String :=
  (if client.useTls then "https" else "http") ++ "://" ++ client.host ++ ":" ++
    toString client.port

def headers (client : AspClient) (url : String) : List (String × String) :=
  (match client.sessionCookie with
    | some cookie => if cookie = "" then [] else [("Cookie", "SessionCookie=" ++ cookie)]
    | none => []) ++
  match client.csrfToken with
  | some token =>
      if token = "" ∨ PyText.isIn "WEBSES".toList url.toList then [] else [("CSRFTOKEN", token)]
  | none => []

variable (client : AspClient)

def knownSecrets : List String :=
  ([client.password] ++ client.sessionCookie.toList ++ client.csrfToken.toList).filter (· ≠ "")

def sendOnce (method url operation : String) (data params : Option (List (String × String)))
    (http : Http) : Except SendFault String × Http :=
  let raised (errorClass : ErrorClass) (message : String) : Except SendFault String :=
    .error (.raised {
      errorClass
      message
      endpoint := some client.endpoint
      operation := some operation
      secrets := client.knownSecrets })
  match http.request { method, url, headers := client.headers url, data, params } with
  | (.response text, http) => (.ok text, http)
  | (.connectTimeout, http) => (raised .timeout ("Timed out connecting to " ++ url), http)
  | (.sslError text, http) =>
      (raised .tlsValidation
        ("TLS handshake with " ++ client.endpoint ++ " failed: " ++ text ++ ". This BMC's TLS " ++
          "listener has been observed to accept TLS 1.2 only with the single ciphersuite " ++
          "AES256-GCM-SHA384 (static RSA, no forward secrecy) -- if this is a cipher/protocol " ++
          "mismatch rather than a certificate problem, check that nothing overrode this " ++
          "client's TLS context."), http)
  | (.readTimeout, http) => (.error .transientBusy, http)
  | (.connectionError text causes, http) =>
      if connectionErrorIsPostConnect (text :: causes) then (.error .transientBusy, http)
      else (raised .connection ("Could not connect to " ++ url ++ ": " ++ text), http)

/-- The `BmcBusyError` of `AspClient._send_with_retry`. -/
def busyError (method url operation : String) (attempt : ℕ) : IkvmError where
  errorClass := .bmcBusy
  message := client.endpoint ++ " accepted the connection but never served " ++ operation ++
    " (" ++ method ++ " " ++ url ++ ") after " ++ toString attempt ++ " attempt(s). This BMC's " ++
    "web server has a small per-listener worker pool that saturates under concurrent load; " ++
    "wait and retry later rather than immediately, and confirm nothing else is hitting this " ++
    "BMC concurrently."
  endpoint := some client.endpoint
  operation := some operation
  secrets := client.knownSecrets
  indeterminate := true

/-- One round of the loop of `AspClient._send_with_retry`. -/
def retryRound (method url operation : String) (data params : Option (List (String × String)))
    (s : ℕ × Http) : Loop.Step (ℕ × Http) (Except Exn String) :=
  match client.sendOnce method url operation data params s.2 with
  | (.ok text, http) => .done (.ok text) (s.1, http)
  | (.error (.raised error), http) => .done (.error (.ikvm error)) (s.1, http)
  | (.error .transientBusy, http) =>
      let attempt := s.1 + 1
      if client.maxRetries < attempt then
        .done (.error (.ikvm (client.busyError method url operation attempt))) (attempt, http)
      else .again (attempt, http)

theorem retryRound_decreases (method url operation : String)
    (data params : Option (List (String × String))) :
    Loop.Decreases (fun s => client.maxRetries - s.1)
      (client.retryRound method url operation data params) := by
  intro s next round
  unfold retryRound at round
  split at round
  case h_1 => cases round
  case h_2 => cases round
  case h_3 =>
    dsimp only at round
    split_ifs at round with exhausted
    cases round
    dsimp only
    omega

def sendWithRetry (method url : String) (operation : Option String)
    (data params : Option (List (String × String))) (http : Http) : Except Exn String × Http :=
  let operation := PyText.orElse operation method
  let (result, _, http) :=
    Loop.run (fun s => client.maxRetries - s.1)
      (client.retryRound method url operation data params)
      (client.retryRound_decreases method url operation data params) (0, http)
  (result, http)

def request (method path : String) (operation : Option String)
    (data params : Option (List (String × String))) (http : Http) : Except Exn String × Http :=
  client.sendWithRetry method (client.baseUrl ++ path) (some (PyText.orElse operation path))
    data params http

end AspClient

/-- The functions that read the body of a response: `looks_like_session_expired_html`,
`parse_webvar`, `parse_jnlp_arguments` and `JnlpSession.from_arguments`, with what the
client looks at in their results. -/
structure BodyReaders (ω ν : Type) where
  looksLikeSessionExpiredHtml : String → Bool
  parseWebvar : (body endpoint operation : String) → Except Exn ω
  hapiStatus : ω → ℤ
  reprRecords : ω → String
  parseJnlpArguments : String → List (String × String)
  reprNames : List (String × String) → String
  fromArguments : List (String × String) → ν
  kvmToken : ν → Option String

namespace AspClient

variable (client : AspClient) {ω ν : Type} (readers : BodyReaders ω ν)

def raiseIfSessionExpired (body operation : String) : Except Exn Unit :=
  if readers.looksLikeSessionExpiredHtml body then
    .error (.ikvm {
      errorClass := .protocol
      message := operation ++ " returned a session-expired-looking HTML page instead of a " ++
        "parseable .asp response body (HTML with login/session markers, no WEBVAR_JSONVAR_ -- " ++
        "see GitHub issue #5). This BMC has been observed answering an authenticated read with " ++
        "exactly this shape when the read was missing something this endpoint enforces: a " ++
        "missing CSRFTOKEN header was the confirmed cause for five other endpoints " ++
        "(getalllancfg, getlanchannelinfo, getdnscfg, getnwbondcfg, checknwbond), which this " ++
        "client now attaches to every non-WEBSES request (see AspClient._headers()); whether " ++
        "this specific endpoint enforces it too is not itself confirmed either way. Reporting " ++
        "success on this body would be a confident wrong answer, which is worse than failing " ++
        "here."
      endpoint := some client.endpoint
      operation := some operation
      diagnostic := some body
      secrets := client.knownSecrets })
  else .ok ()

/-- `AspClient.set_webvar` from the body of the response on. -/
def readWrite (endpoint operation body : String) : Except Exn ω := do
  client.raiseIfSessionExpired readers body operation
  let response ← readers.parseWebvar body endpoint operation
  if readers.hapiStatus response ≠ 0 then
    .error (.ikvm {
      errorClass := .remoteOperation
      message := endpoint ++ ".asp reported HAPI_STATUS=" ++
        toString (readers.hapiStatus response) ++ " for a write -- the BMC accepted the " ++
        "request but reported the operation itself failed. No BMC state should be assumed " ++
        "changed."
      endpoint := some client.endpoint
      operation := some operation
      diagnostic := some ("records=" ++ readers.reprRecords response)
      returnValue := some (readers.hapiStatus response) })
  else .ok response

def setWebvar (endpoint : String) (data : List (String × String)) (operation : Option String)
    (http : Http) : Except Exn ω × Http :=
  let path := if endpoint.startsWith "/" then endpoint else "/rpc/" ++ endpoint ++ ".asp"
  let op := PyText.orElse operation ("set_webvar:" ++ endpoint)
  match client.request "POST" path (some op) (some data) none http with
  | (.error exn, http) => (.error exn, http)
  | (.ok body, http) => (client.readWrite readers endpoint op body, http)

def setPower (command : String) (http : Http) : Except Exn String × Http :=
  client.request "POST" "/rpc/hostctl.asp" (some "set_power")
    (some [("WEBVAR_POWER_CMD", command)]) none http

/-- `AspClient.allocate_media_session` from the body of the response on. -/
def readAllocation (body : String) : Except Exn ν :=
  let arguments := readers.parseJnlpArguments body
  let session := readers.fromArguments arguments
  match readers.kvmToken session with
  | none =>
      .error (.ikvm {
        errorClass := .protocol
        message := "jviewer.jnlp response did not contain a usable -kvmtoken argument"
        endpoint := some client.endpoint
        operation := some "allocate_media_session"
        diagnostic := some ("argument names seen: " ++ readers.reprNames arguments)
        secrets := client.knownSecrets })
  | some _ => .ok session

def allocateMediaSession (clientIp : String) (secure : Option Bool) (http : Http) :
    Except Exn ν × Http :=
  match client.sessionCookie with
  | none =>
      (.error (.ikvm {
        errorClass := .authentication
        message := "allocate_media_session() requires an active session; call login() first"
        endpoint := some client.endpoint
        operation := some "allocate_media_session" }), http)
  | some _ =>
      let useTlsForFetch := secure.getD client.useTls
      let scheme := if useTlsForFetch then "https" else "http"
      let url := scheme ++ "://" ++ client.host ++ ":" ++ toString client.port ++
        "/Java/jviewer.jnlp"
      match client.sendWithRetry "GET" url (some "allocate_media_session") none
          (some [("EXTRNIP", clientIp), ("JNLPSTR", "JViewer")]) http with
      | (.error exn, http) => (.error exn, http)
      | (.ok body, http) => (client.readAllocation readers body, http)

end AspClient

/-- The call that has led from `before` to `after` has not repeated a request the peer may
have processed: the attempt that may have been processed is the last one, and when its
outcome is uncertain the call fails as indeterminate. -/
structure NeverRetried {α : Type*} (before after : Http) (result : Except Exn α) : Prop where
  last : ∀ k, before.attempts.length ≤ k → k < after.attempts.length →
    (before.outcomes k).mayBeProcessed = true → k + 1 = after.attempts.length
  indeterminate : ∀ k, before.attempts.length ≤ k → k < after.attempts.length →
    (before.outcomes k).uncertain = true →
      ∃ error, result = .error (.ikvm error) ∧ error.indeterminate = true

/-- The outcome the next attempt is going to have. -/
def Http.next (http : Http) : Outcome :=
  http.outcomes http.attempts.length

namespace AspClient

variable {client : AspClient} {method url operation : String}
  {data params : Option (List (String × String))} {http : Http}

/-- An attempt asks for a retry exactly when its outcome is uncertain. -/
theorem sendOnce_spec :
    (client.sendOnce method url operation data params http).2.attempts.length =
        http.attempts.length + 1 ∧
      ((client.sendOnce method url operation data params http).1 = .error .transientBusy ↔
        http.next.uncertain = true) := by
  unfold sendOnce Http.request Http.next
  cases http.outcomes http.attempts.length with
  | response | connectTimeout | sslError | readTimeout => simp [Outcome.uncertain]
  | connectionError text causes =>
      cases postConnect : connectionErrorIsPostConnect (text :: causes) <;>
        simp [Outcome.uncertain, postConnect]

theorem retryRound_attempts {n : ℕ} {s : ℕ × Http} (start : n ≤ s.2.attempts.length) :
    (client.retryRound method url operation data params s).Satisfies
      (fun next => n ≤ next.2.attempts.length)
      (fun _ final => n + 1 ≤ final.2.attempts.length) := by
  obtain ⟨attempts, -⟩ :=
    @sendOnce_spec client method url operation data params s.2
  unfold retryRound
  generalize client.sendOnce method url operation data params s.2 = outcome at attempts ⊢
  rcases outcome with ⟨(error | _) | text, later⟩
  · simp only [Loop.Step.Satisfies] at attempts ⊢
    omega
  · dsimp only at attempts ⊢
    split_ifs
    · simp only [Loop.Step.Satisfies]
      omega
    · simp only [Loop.Step.Satisfies]
      omega
  · simp only [Loop.Step.Satisfies] at attempts ⊢
    omega

theorem retryRound_of_certain {s : ℕ × Http} (certain : s.2.next.uncertain = false) :
    ∃ result, client.retryRound method url operation data params s =
      .done result (s.1, (client.sendOnce method url operation data params s.2).2) := by
  have notBusy := (@sendOnce_spec client method url operation data params s.2).2
  unfold retryRound
  generalize client.sendOnce method url operation data params s.2 = outcome at notBusy ⊢
  rcases outcome with ⟨(error | _) | text, later⟩
  · exact ⟨_, rfl⟩
  · simp [certain] at notBusy
  · exact ⟨_, rfl⟩

theorem retryRound_of_uncertain {s : ℕ × Http} (uncertain : s.2.next.uncertain = true) :
    client.retryRound method url operation data params s =
      let later := (client.sendOnce method url operation data params s.2).2
      if client.maxRetries < s.1 + 1 then
        .done (.error (.ikvm (client.busyError method url operation (s.1 + 1)))) (s.1 + 1, later)
      else .again (s.1 + 1, later) := by
  have busy := (@sendOnce_spec client method url operation data params s.2).2.mpr uncertain
  have outcome : client.sendOnce method url operation data params s.2 =
      (.error .transientBusy, (client.sendOnce method url operation data params s.2).2) :=
    Prod.ext busy rfl
  rw [retryRound, outcome]

/-- What the retry loop does after its first attempt. -/
theorem sendWithRetry_spec (method url : String) (operation : Option String)
    (data params : Option (List (String × String))) (client : AspClient) (http : Http) :
    (http.next.uncertain = false ∧
      (client.sendWithRetry method url operation data params http).2.attempts.length =
        http.attempts.length + 1) ∨
    (http.next.uncertain = true ∧ client.maxRetries = 0 ∧
      (client.sendWithRetry method url operation data params http).2.attempts.length =
        http.attempts.length + 1 ∧
      ∃ error, (client.sendWithRetry method url operation data params http).1 =
        .error (.ikvm error) ∧ error.indeterminate = true) ∨
    (http.next.uncertain = true ∧ 0 < client.maxRetries ∧
      http.attempts.length + 2 ≤
        (client.sendWithRetry method url operation data params http).2.attempts.length) := by
  unfold sendWithRetry
  dsimp only
  generalize PyText.orElse operation method = operation
  have attempts := (@sendOnce_spec client method url operation data params http).1
  cases first : http.next.uncertain with
  | false =>
      left
      rcases @retryRound_of_certain client method url operation data params (0, http) first with
        ⟨result, round⟩
      rw [Loop.run_done round]
      exact ⟨rfl, attempts⟩
  | true =>
      right
      have round := @retryRound_of_uncertain client method url operation data params (0, http)
        first
      by_cases exhausted : client.maxRetries < 1
      · left
        rw [if_pos exhausted] at round
        rw [Loop.run_done round]
        exact ⟨rfl, by omega, attempts, _, rfl, rfl⟩
      · right
        rw [if_neg exhausted] at round
        rw [Loop.run_again round]
        refine ⟨rfl, by omega, ?_⟩
        exact Loop.run_spec
          (fun next : ℕ × Http => http.attempts.length + 1 ≤ next.2.attempts.length)
          (fun _ (final : ℕ × Http) => http.attempts.length + 2 ≤ final.2.attempts.length)
          (fun s start => retryRound_attempts start) attempts.ge

/-- A call around the retry loop never repeats a request the peer may have processed
exactly when there is no retry budget or its first attempt is not uncertain. -/
theorem neverRetried_iff {α : Type} (method url : String) (operation : Option String)
    (data params : Option (List (String × String))) (client : AspClient) (http : Http)
    (read : String → Except Exn α) :
    NeverRetried http (client.sendWithRetry method url operation data params http).2
        ((client.sendWithRetry method url operation data params http).1.bind read) ↔
      client.maxRetries = 0 ∨ http.next.uncertain = false := by
  rcases client.sendWithRetry_spec method url operation data params http with
    ⟨certain, attempts⟩ | ⟨uncertain, noRetries, attempts, error, failed, indeterminate⟩ |
      ⟨uncertain, retries, attempts⟩
  · refine iff_of_true ⟨?_, ?_⟩ (.inr certain)
    · intro k start stop _
      omega
    · intro k start stop uncertain
      obtain rfl : k = http.attempts.length := by omega
      rw [← Http.next, certain] at uncertain
      cases uncertain
  · refine iff_of_true ⟨?_, ?_⟩ (.inl noRetries)
    · intro k start stop _
      omega
    · intro k start stop _
      rw [failed]
      exact ⟨error, rfl, indeterminate⟩
  · refine iff_of_false ?_ (by simp [uncertain, retries.ne'])
    intro never
    have processed : (http.outcomes http.attempts.length).mayBeProcessed = true := by
      rw [← Http.next]
      cases outcome : http.next with
      | response => rfl
      | connectTimeout | sslError | readTimeout | connectionError =>
          rw [outcome] at uncertain
          exact uncertain
    have last := never.last http.attempts.length le_rfl (by omega) processed
    omega

end AspClient

section Mutations

variable {ω ν : Type} (readers : BodyReaders ω ν) (client : AspClient) (http : Http)

theorem AspClient.setWebvar_neverRetried_iff (endpoint : String) (data : List (String × String))
    (operation : Option String) :
    NeverRetried http (client.setWebvar readers endpoint data operation http).2
        (client.setWebvar readers endpoint data operation http).1 ↔
      client.maxRetries = 0 ∨ http.next.uncertain = false := by
  unfold setWebvar request
  dsimp only
  generalize (if endpoint.startsWith "/" then endpoint else "/rpc/" ++ endpoint ++ ".asp") = path
  generalize PyText.orElse operation ("set_webvar:" ++ endpoint) = op
  rw [← client.neverRetried_iff "POST" (client.baseUrl ++ path)
    (some (PyText.orElse (some op) path)) (some data) none http
    (client.readWrite readers endpoint op)]
  rcases client.sendWithRetry "POST" (client.baseUrl ++ path)
    (some (PyText.orElse (some op) path)) (some data) none http with ⟨exn | body, later⟩ <;> rfl

theorem AspClient.setPower_neverRetried_iff (command : String) :
    NeverRetried http (client.setPower command http).2 (client.setPower command http).1 ↔
      client.maxRetries = 0 ∨ http.next.uncertain = false := by
  unfold setPower request
  rw [← client.neverRetried_iff "POST" (client.baseUrl ++ "/rpc/hostctl.asp")
    (some (PyText.orElse (some "set_power") "/rpc/hostctl.asp"))
    (some [("WEBVAR_POWER_CMD", command)]) none http Except.ok]
  rcases client.sendWithRetry "POST" (client.baseUrl ++ "/rpc/hostctl.asp")
    (some (PyText.orElse (some "set_power") "/rpc/hostctl.asp"))
    (some [("WEBVAR_POWER_CMD", command)]) none http with ⟨exn | body, later⟩ <;> rfl

theorem AspClient.allocateMediaSession_neverRetried_iff (clientIp : String)
    (secure : Option Bool) :
    NeverRetried http (client.allocateMediaSession readers clientIp secure http).2
        (client.allocateMediaSession readers clientIp secure http).1 ↔
      client.maxRetries = 0 ∨ http.next.uncertain = false ∨ client.sessionCookie = none := by
  unfold allocateMediaSession
  cases cookie : client.sessionCookie with
  | none =>
      dsimp only
      refine iff_of_true ⟨?_, ?_⟩ (by simp)
      · intro k start stop _
        omega
      · intro k start stop _
        omega
  | some _ =>
      simp only [reduceCtorEq, or_false]
      generalize (if secure.getD client.useTls then "https" else "http") ++ "://" ++
        client.host ++ ":" ++ toString client.port ++ "/Java/jviewer.jnlp" = url
      rw [← client.neverRetried_iff "GET" url (some "allocate_media_session") none
        (some [("EXTRNIP", clientIp), ("JNLPSTR", "JViewer")]) http
        (client.readAllocation readers)]
      rcases client.sendWithRetry "GET" url (some "allocate_media_session") none
        (some [("EXTRNIP", clientIp), ("JNLPSTR", "JViewer")]) http with
        ⟨exn | body, later⟩ <;> rfl

end Mutations

/-- A mutating call never repeats a request the peer may have processed exactly when the
client has no retry budget, the first attempt of the call is not uncertain, or the call is
refused before anything is sent. -/
theorem mutations_neverRetried_iff (client : AspClient) (http : Http) :
    (∀ (ω ν : Type) (readers : BodyReaders ω ν) (endpoint : String)
        (data : List (String × String)) (operation : Option String),
      NeverRetried http (client.setWebvar readers endpoint data operation http).2
          (client.setWebvar readers endpoint data operation http).1 ↔
        client.maxRetries = 0 ∨ http.next.uncertain = false) ∧
    (∀ command : String,
      NeverRetried http (client.setPower command http).2 (client.setPower command http).1 ↔
        client.maxRetries = 0 ∨ http.next.uncertain = false) ∧
    (∀ (ω ν : Type) (readers : BodyReaders ω ν) (clientIp : String) (secure : Option Bool),
      NeverRetried http (client.allocateMediaSession readers clientIp secure http).2
          (client.allocateMediaSession readers clientIp secure http).1 ↔
        client.maxRetries = 0 ∨ http.next.uncertain = false ∨ client.sessionCookie = none) := by
  refine ⟨?_, ?_, ?_⟩
  · intro ω ν readers endpoint data operation
    exact client.setWebvar_neverRetried_iff readers http endpoint data operation
  · intro command
    exact client.setPower_neverRetried_iff http command
  · intro ω ν readers clientIp secure
    exact client.allocateMediaSession_neverRetried_iff readers http clientIp secure

/-- With the default budget a power command whose response does not come back is sent again. -/
theorem setPower_retried :
    ¬ NeverRetried { outcomes := fun _ => .readTimeout }
      (({ host := "bmc", password := "secret" } : AspClient).setPower "reset"
        { outcomes := fun _ => .readTimeout }).2
      (({ host := "bmc", password := "secret" } : AspClient).setPower "reset"
        { outcomes := fun _ => .readTimeout }).1 := by
  rw [AspClient.setPower_neverRetried_iff]
  decide

end Asmb8Ikvm.Asp

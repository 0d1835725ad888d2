import Asmb8Ikvm.Asp.Client
import Asmb8Ikvm.Asp.Webvar

/-!
# Web sessions

The operations of `AspClient` on one session. `login` stores the session cookie
and the CSRF token of the response it has read; every other call uses them. The
rule for the token is a test of the URL: a URL that contains `WEBSES` goes
without it, wherever the text occurs.

A run is a sequence of calls on one client. It keeps, beside the client and the
network, the response of the most recent login that succeeded, so that a
statement about the stored credentials can name the response they come from.
-/

namespace Asmb8Ikvm.Asp

open PyText Regex

/-- `'NAME'\s*:\s*'([^']*)'`. -/
def fieldRe (name : String) : Expr :=
  .chain (Webvar.exactly ("'" ++ name ++ "'"))
    [.many isSpace, Webvar.exactly ":", .many isSpace, Webvar.exactly "'",
      .group 1 (.many fun c => c != '\''), Webvar.exactly "'"]

def sessionCookieRe : Expr := fieldRe "SESSION_COOKIE"

def stokenRe : Expr := fieldRe "STOKEN"

def csrftokenRe : Expr := fieldRe "CSRFTOKEN"

/-- The first group of the first match. -/
def fieldValue (re : Expr) (body : String) : Option String :=
  (search re none body.toList).map fun found => String.ofList (found.2.groups 1)

/-- `match.group(1) if match and match.group(1) else None`. -/
def tokenValue (re : Expr) (body : String) : Option String :=
  (fieldValue re body).filter (· ≠ "")

def failureLoginPrefix : String := "Failure_Login"

def looksLikeFailedLogin (sessionCookie : String) : Bool :=
  failureLoginPrefix.toList.isPrefixOf sessionCookie.toList

/-- The message of a login the BMC has rejected. -/
def rejectedLogin : String :=
  "The BMC rejected the supplied credentials (create.asp returned a Failure_Login " ++
    "SESSION_COOKIE). See PR #40 (nesvet/nojava-ipmi-kvm) for why this is HTTP 200, not 401."

namespace AspClient

variable (client : AspClient)

/-- `AspClient.login` from the body of the response on. -/
def readLogin (body : String) : Except Exn String × AspClient :=
  match fieldValue sessionCookieRe body with
  | none =>
      (.error (.ikvm {
        errorClass := .protocol
        message := "create.asp response did not contain a SESSION_COOKIE value"
        endpoint := some client.endpoint
        operation := some "login"
        diagnostic := some body
        secrets := client.knownSecrets }), client)
  | some sessionCookie =>
      if sessionCookie = "" ∨ looksLikeFailedLogin sessionCookie = true then
        (.error (.ikvm {
          errorClass := .authentication
          message := rejectedLogin
          endpoint := some client.endpoint
          operation := some "login"
          secrets := [client.password] }), client)
      else
        (.ok sessionCookie,
          { client with
            sessionCookie := some sessionCookie
            csrfToken := tokenValue csrftokenRe body })

def login (http : Http) : Except Exn String × AspClient × Http :=
  match client.request "POST" "/rpc/WEBSES/create.asp" (some "login")
      (some [("WEBVAR_USERNAME", client.username), ("WEBVAR_PASSWORD", client.password)]) none
      http with
  | (.error exn, http) => (.error exn, client, http)
  | (.ok body, http) =>
      let (result, client) := client.readLogin body
      (result, client, http)

def getSessionToken (http : Http) : Except Exn (Option String) × Http :=
  match client.request "GET" "/rpc/getsessiontoken.asp" (some "get_session_token") none none
      http with
  | (.error exn, http) => (.error exn, http)
  | (.ok body, http) => (.ok (tokenValue stokenRe body), http)

variable {ω ν : Type} (readers : BodyReaders ω ν)

/-- `AspClient.get_webvar` and `AspClient.post_webvar` from the body of the response on. -/
def readWebvar (endpoint operation body : String) : Except Exn ω := do
  client.raiseIfSessionExpired readers body operation
  readers.parseWebvar body endpoint operation

/-- `endpoint if endpoint.startswith("/") else f"/rpc/{endpoint}.asp"`. -/
def webvarPath (endpoint : String) : String :=
  if endpoint.startsWith "/" then endpoint else "/rpc/" ++ endpoint ++ ".asp"

def getWebvar (endpoint : String) (operation : Option String) (http : Http) :
    Except Exn ω × Http :=
  let op := PyText.orElse operation ("get_webvar:" ++ endpoint)
  match client.request "GET" (webvarPath endpoint) (some op) none none http with
  | (.error exn, http) => (.error exn, http)
  | (.ok body, http) => (client.readWebvar readers endpoint op body, http)

def postWebvar (endpoint : String) (data : List (String × String)) (operation : Option String)
    (http : Http) : Except Exn ω × Http :=
  let op := PyText.orElse operation ("post_webvar:" ++ endpoint)
  match client.request "POST" (webvarPath endpoint) (some op) (some data) none http with
  | (.error exn, http) => (.error exn, http)
  | (.ok body, http) => (client.readWebvar readers endpoint op body, http)

/-- `AspClient.get_host_status` from the body of the response on. -/
def readHostStatus (body : String) : Except Exn String := do
  client.raiseIfSessionExpired readers body "get_host_status"
  .ok body

def getHostStatus (http : Http) : Except Exn String × Http :=
  match client.request "GET" "/rpc/hoststatus.asp" (some "get_host_status") none none http with
  | (.error exn, http) => (.error exn, http)
  | (.ok body, http) => (client.readHostStatus readers body, http)

end AspClient

/-- The calls on a client. -/
inductive Call where
  | login
  | getSessionToken
  | allocateMediaSession (clientIp : String) (secure : Option Bool)
  | getWebvar (endpoint : String) (operation : Option String)
  | postWebvar (endpoint : String) (data : List (String × String)) (operation : Option String)
  | setWebvar (endpoint : String) (data : List (String × String)) (operation : Option String)
  | getHostStatus
  | setPower (command : String)
deriving DecidableEq, Repr

/-- What the calls return. -/
inductive Reply (ω ν : Type) where
  | text (text : String)
  | token (token : Option String)
  | media (session : ν)
  | response (response : ω)

namespace Call

/-- The path of the URL a call asks for. -/
def path : Call → String
  | .login => "/rpc/WEBSES/create.asp"
  | .getSessionToken => "/rpc/getsessiontoken.asp"
  | .allocateMediaSession _ _ => "/Java/jviewer.jnlp"
  | .getWebvar endpoint _ => AspClient.webvarPath endpoint
  | .postWebvar endpoint _ _ => AspClient.webvarPath endpoint
  | .setWebvar endpoint _ _ => AspClient.webvarPath endpoint
  | .getHostStatus => "/rpc/hoststatus.asp"
  | .setPower _ => "/rpc/hostctl.asp"

variable {ω ν : Type}

/-- A call that does not change the client. -/
def keeping (client : AspClient) {α : Type} (reply : α → Reply ω ν) :
    Except Exn α × Http → Except Exn (Reply ω ν) × AspClient × Http
  | (result, http) => (result.map reply, client, http)

def perform (readers : BodyReaders ω ν) (client : AspClient) (http : Http) :
    Call → Except Exn (Reply ω ν) × AspClient × Http
  | .login =>
      let (result, client, http) := client.login http
      (result.map .text, client, http)
  | .getSessionToken => keeping client .token (client.getSessionToken http)
  | .allocateMediaSession clientIp secure =>
      keeping client .media (client.allocateMediaSession readers clientIp secure http)
  | .getWebvar endpoint operation =>
      keeping client .response (client.getWebvar readers endpoint operation http)
  | .postWebvar endpoint data operation =>
      keeping client .response (client.postWebvar readers endpoint data operation http)
  | .setWebvar endpoint data operation =>
      keeping client .response (client.setWebvar readers endpoint data operation http)
  | .getHostStatus => keeping client .text (client.getHostStatus readers http)
  | .setPower command => keeping client .text (client.setPower command http)

end Call

/-- A client, its network, and the response of the most recent successful login. -/
structure Session where
  client : AspClient
  http : Http
  granted : Option String := none

namespace Session

variable {ω ν : Type} (readers : BodyReaders ω ν)

/-- The text of the response that has arrived last. -/
def lastResponse (http : Http) : Option String :=
  match http.outcomes (http.attempts.length - 1) with
  | .response text => some text
  | _ => none

def step (s : Session) (call : Call) : Session :=
  match call.perform readers s.client s.http with
  | (result, client, http) =>
      { client
        http
        granted :=
          match call, result with
          | .login, .ok _ => lastResponse http
          | _, _ => s.granted }

def run (s : Session) (calls : List Call) : Session :=
  calls.foldl (step readers) s

/-- The requests a call sends. -/
def sent (s : Session) (call : Call) : List Request :=
  (s.step readers call).http.attempts.drop s.http.attempts.length

end Session

namespace AspClient

/-- The request of an attempt. -/
def requestTo (client : AspClient) (method url : String)
    (data params : Option (List (String × String))) : Request where
  method
  url
  headers := client.headers url
  data
  params

variable {client : AspClient} {method url operation : String}
  {data params : Option (List (String × String))} {http : Http}

theorem sendOnce_sent :
    (client.sendOnce method url operation data params http).2 =
        { http with attempts := http.attempts ++ [client.requestTo method url data params] } ∧
      ∀ body, (client.sendOnce method url operation data params http).1 = .ok body ↔
        http.next = .response body := by
  unfold sendOnce Http.request Http.next requestTo
  cases http.outcomes http.attempts.length with
  | response | connectTimeout | sslError | readTimeout => simp
  | connectionError text causes =>
      cases postConnect : connectionErrorIsPostConnect (text :: causes) <;> simp [postConnect]

/-- The retry loop sends one request one or more times, and what it returns is the response
to the last attempt. -/
theorem sendWithRetry_sent (client : AspClient) (method url : String) (operation : Option String)
    (data params : Option (List (String × String))) (http : Http) :
    ∃ n, (client.sendWithRetry method url operation data params http).2 =
        { http with
          attempts := http.attempts ++
            List.replicate (n + 1) (client.requestTo method url data params) } ∧
      ∀ body, (client.sendWithRetry method url operation data params http).1 = .ok body ↔
        http.outcomes (http.attempts.length + n) = .response body := by
  unfold sendWithRetry
  dsimp only
  generalize PyText.orElse operation method = operation
  generalize same : client.requestTo method url data params = request
  refine Loop.run_spec
    (fun s : ℕ × Http =>
      ∃ n, s.2 = { http with attempts := http.attempts ++ List.replicate n request })
    (fun (result : Except Exn String) (final : ℕ × Http) =>
      ∃ n, final.2 = { http with attempts := http.attempts ++ List.replicate (n + 1) request } ∧
        ∀ body, result = .ok body ↔
          http.outcomes (http.attempts.length + n) = .response body)
    ?_ ⟨0, by simp⟩
  rintro ⟨attempt, now⟩ ⟨n, soFar⟩
  dsimp only at soFar
  have once := @sendOnce_sent client method url operation data params now
  have later : (client.sendOnce method url operation data params now).2 =
      { http with attempts := http.attempts ++ List.replicate (n + 1) request } := by
    rw [once.1, soFar, same, List.append_assoc, List.replicate_succ']
  have response : ∀ body, (client.sendOnce method url operation data params now).1 = .ok body ↔
      http.outcomes (http.attempts.length + n) = .response body := by
    intro body
    rw [once.2 body, soFar]
    simp [Http.next]
  unfold retryRound
  dsimp only
  generalize client.sendOnce method url operation data params now = outcome at later response ⊢
  rcases outcome with ⟨(error | _) | text, final⟩
  · refine ⟨n, later, ?_⟩
    intro body
    rw [← response]
    simp
  · dsimp only at later response ⊢
    split_ifs
    · refine ⟨n, later, ?_⟩
      intro body
      rw [← response]
      simp
    · exact ⟨n + 1, later⟩
  · refine ⟨n, later, ?_⟩
    intro body
    rw [← response]
    simp

section Equations

variable (client) {ω ν : Type} (readers : BodyReaders ω ν) (http)

theorem login_eq :
    client.login http =
      let sent := client.request "POST" "/rpc/WEBSES/create.asp" (some "login")
        (some [("WEBVAR_USERNAME", client.username), ("WEBVAR_PASSWORD", client.password)]) none
        http
      (sent.1.bind fun body => (client.readLogin body).1,
        (sent.1.toOption.map fun body => (client.readLogin body).2).getD client, sent.2) := by
  unfold login
  dsimp only
  split
  next same => rw [same]; rfl
  next same => rw [same]; rfl

theorem getSessionToken_eq :
    client.getSessionToken http =
      let sent := client.request "GET" "/rpc/getsessiontoken.asp" (some "get_session_token") none
        none http
      (sent.1.bind fun body => .ok (tokenValue stokenRe body), sent.2) := by
  unfold getSessionToken
  dsimp only
  split
  next same => rw [same]; rfl
  next same => rw [same]; rfl

theorem getWebvar_eq (endpoint : String) (operation : Option String) :
    client.getWebvar readers endpoint operation http =
      let op := PyText.orElse operation ("get_webvar:" ++ endpoint)
      let sent := client.request "GET" (webvarPath endpoint) (some op) none none http
      (sent.1.bind (client.readWebvar readers endpoint op), sent.2) := by
  unfold getWebvar
  dsimp only
  split
  next same => rw [same]; rfl
  next same => rw [same]; rfl

theorem postWebvar_eq (endpoint : String) (data : List (String × String))
    (operation : Option String) :
    client.postWebvar readers endpoint data operation http =
      let op := PyText.orElse operation ("post_webvar:" ++ endpoint)
      let sent := client.request "POST" (webvarPath endpoint) (some op) (some data) none http
      (sent.1.bind (client.readWebvar readers endpoint op), sent.2) := by
  unfold postWebvar
  dsimp only
  split
  next same => rw [same]; rfl
  next same => rw [same]; rfl

theorem setWebvar_eq (endpoint : String) (data : List (String × String))
    (operation : Option String) :
    client.setWebvar readers endpoint data operation http =
      let op := PyText.orElse operation ("set_webvar:" ++ endpoint)
      let sent := client.request "POST" (webvarPath endpoint) (some op) (some data) none http
      (sent.1.bind (client.readWrite readers endpoint op), sent.2) := by
  unfold setWebvar
  rw [← webvarPath]
  dsimp only
  split
  next same => rw [same]; rfl
  next same => rw [same]; rfl

theorem getHostStatus_eq :
    client.getHostStatus readers http =
      let sent := client.request "GET" "/rpc/hoststatus.asp" (some "get_host_status") none none
        http
      (sent.1.bind (client.readHostStatus readers), sent.2) := by
  unfold getHostStatus
  dsimp only
  split
  next same => rw [same]; rfl
  next same => rw [same]; rfl

/-- With a session the document is fetched, over the scheme that is asked for. -/
theorem allocateMediaSession_eq {cookie : String} (session : client.sessionCookie = some cookie)
    (clientIp : String) (secure : Option Bool) :
    client.allocateMediaSession readers clientIp secure http =
      let sent := client.sendWithRetry "GET" ((if secure.getD client.useTls then "https"
        else "http") ++ "://" ++ client.host ++ ":" ++ toString client.port ++
        "/Java/jviewer.jnlp") (some "allocate_media_session") none
        (some [("EXTRNIP", clientIp), ("JNLPSTR", "JViewer")]) http
      (sent.1.bind (client.readAllocation readers), sent.2) := by
  unfold allocateMediaSession
  rw [session]
  dsimp only
  split
  next same => rw [same]; rfl
  next same => rw [same]; rfl

end Equations

/-- The request goes to a path of the client's host and has the headers for its URL. -/
structure Addressed (client : AspClient) (path : String) (request : Request) : Prop where
  url : ∃ scheme ∈ ["https", "http"],
    request.url = scheme ++ "://" ++ client.host ++ ":" ++ toString client.port ++ path
  headers : request.headers = client.headers request.url

/-- The network has gone from `http` to `final` by one request to the path, sent one or more
times. -/
def SendsTo (client : AspClient) (path : String) (http final : Http) : Prop :=
  ∃ n request, client.Addressed path request ∧
    final = { http with attempts := http.attempts ++ List.replicate (n + 1) request }

theorem request_sent (client : AspClient) (method path : String) (operation : Option String)
    (data params : Option (List (String × String))) (http : Http) :
    ∃ n request, client.Addressed path request ∧
      (client.request method path operation data params http).2 =
        { http with attempts := http.attempts ++ List.replicate (n + 1) request } ∧
      ∀ body, (client.request method path operation data params http).1 = .ok body ↔
        http.outcomes (http.attempts.length + n) = .response body := by
  rcases client.sendWithRetry_sent method (client.baseUrl ++ path)
    (some (PyText.orElse operation path)) data params http with ⟨n, later, response⟩
  refine ⟨n, _, ⟨⟨if client.useTls then "https" else "http", ?_, rfl⟩, rfl⟩, later, response⟩
  split_ifs <;> simp

theorem request_sendsTo (client : AspClient) (method path : String) (operation : Option String)
    (data params : Option (List (String × String))) (http : Http) :
    client.SendsTo path http (client.request method path operation data params http).2 := by
  rcases client.request_sent method path operation data params http with
    ⟨n, request, addressed, later, -⟩
  exact ⟨n, request, addressed, later⟩

theorem request_of_response {path body : String} {operation : Option String}
    (response : http.next = .response body) :
    (client.request method path operation data params http).1 = .ok body := by
  unfold request sendWithRetry
  dsimp only
  generalize PyText.orElse (some (PyText.orElse operation path)) method = operation
  have round : client.retryRound method (client.baseUrl ++ path) operation data params (0, http) =
      .done (.ok body) (0, (client.sendOnce method (client.baseUrl ++ path) operation data params
        http).2) := by
    unfold retryRound sendOnce Http.request
    rw [Http.next] at response
    rw [response]
  rw [Loop.run_done round]

theorem login_of_response {body : String} (response : http.next = .response body) :
    (client.login http).2.1 = (client.readLogin body).2 := by
  rw [login_eq]
  dsimp only
  rw [request_of_response response]
  rfl

/-- A login that fails keeps the client as it is; one that succeeds stores what the response
that has arrived last says. -/
theorem login_cases (client : AspClient) (http : Http) :
    (∃ exn, (client.login http).1 = .error exn ∧ (client.login http).2.1 = client) ∨
    ∃ body cookie, (client.login http).1 = .ok cookie ∧
      Session.lastResponse (client.login http).2.2 = some body ∧
      fieldValue sessionCookieRe body = some cookie ∧ cookie ≠ "" ∧
      looksLikeFailedLogin cookie = false ∧
      (client.login http).2.1 =
        { client with
          sessionCookie := some cookie
          csrfToken := tokenValue csrftokenRe body } := by
  unfold login
  rcases client.request_sent "POST" "/rpc/WEBSES/create.asp" (some "login")
    (some [("WEBVAR_USERNAME", client.username), ("WEBVAR_PASSWORD", client.password)]) none
    http with ⟨n, request, -, later, response⟩
  generalize client.request "POST" "/rpc/WEBSES/create.asp" (some "login")
    (some [("WEBVAR_USERNAME", client.username), ("WEBVAR_PASSWORD", client.password)]) none
    http = outcome at later response
  rcases outcome with ⟨exn | body, final⟩
  · exact .inl ⟨exn, rfl, rfl⟩
  · dsimp only at later response ⊢
    unfold readLogin
    cases field : fieldValue sessionCookieRe body with
    | none => exact .inl ⟨_, rfl, rfl⟩
    | some cookie =>
        dsimp only
        split_ifs with rejected
        · exact .inl ⟨_, rfl, rfl⟩
        · rw [not_or, Bool.not_eq_true] at rejected
          refine .inr ⟨body, cookie, rfl, ?_, field, rejected.1, rejected.2, rfl⟩
          simp [Session.lastResponse, later, (response body).mp rfl]

end AspClient

namespace Call

variable {ω ν : Type} (readers : BodyReaders ω ν)

theorem perform_client {call : Call} (other : call ≠ .login) (client : AspClient) (http : Http) :
    (call.perform readers client http).2.1 = client := by
  cases call with
  | login => exact absurd rfl other
  | getSessionToken | allocateMediaSession | getWebvar | postWebvar | setWebvar | getHostStatus
  | setPower => rfl

/-- A call sends one request one or more times, unless it is refused for want of a session. -/
theorem perform_sent (call : Call) (client : AspClient) (http : Http) :
    client.SendsTo call.path http (call.perform readers client http).2.2 ∨
      client.sessionCookie = none ∧ (call.perform readers client http).2.2 = http := by
  cases call with
  | allocateMediaSession clientIp secure =>
      simp only [perform, keeping]
      cases session : client.sessionCookie with
      | none => exact .inr ⟨rfl, by rw [AspClient.allocateMediaSession, session]⟩
      | some cookie =>
          rw [client.allocateMediaSession_eq http readers session]
          rcases client.sendWithRetry_sent "GET" ((if secure.getD client.useTls then "https"
            else "http") ++ "://" ++ client.host ++ ":" ++ toString client.port ++
            "/Java/jviewer.jnlp") (some "allocate_media_session") none
            (some [("EXTRNIP", clientIp), ("JNLPSTR", "JViewer")]) http with ⟨n, later, -⟩
          refine .inl ⟨n, _, ⟨⟨_, ?_, rfl⟩, rfl⟩, later⟩
          split_ifs <;> simp
  | login =>
      simp only [perform, AspClient.login_eq]
      exact .inl (client.request_sendsTo ..)
  | getSessionToken =>
      simp only [perform, keeping, AspClient.getSessionToken_eq]
      exact .inl (client.request_sendsTo ..)
  | getWebvar endpoint operation =>
      simp only [perform, keeping, AspClient.getWebvar_eq]
      exact .inl (client.request_sendsTo ..)
  | postWebvar endpoint data operation =>
      simp only [perform, keeping, AspClient.postWebvar_eq]
      exact .inl (client.request_sendsTo ..)
  | setWebvar endpoint data operation =>
      simp only [perform, keeping, AspClient.setWebvar_eq]
      exact .inl (client.request_sendsTo ..)
  | getHostStatus =>
      simp only [perform, keeping, AspClient.getHostStatus_eq]
      exact .inl (client.request_sendsTo ..)
  | setPower command => exact .inl (client.request_sendsTo ..)

/-- Every path starts with a slash. -/
theorem path_eq_cons (call : Call) : ∃ rest, call.path.toList = '/' :: rest := by
  have webvar : ∀ endpoint, ∃ rest, (AspClient.webvarPath endpoint).toList = '/' :: rest := by
    intro endpoint
    unfold AspClient.webvarPath
    split_ifs with absolute
    · rw [String.startsWith_string_iff] at absolute
      rcases absolute with ⟨rest, same⟩
      exact ⟨rest, same.symm⟩
    · exact ⟨"rpc/".toList ++ endpoint.toList ++ ".asp".toList, by simp⟩
  cases call with
  | getWebvar endpoint => exact webvar endpoint
  | postWebvar endpoint => exact webvar endpoint
  | setWebvar endpoint => exact webvar endpoint
  | login | getSessionToken | allocateMediaSession | getHostStatus | setPower =>
      exact ⟨_, by simp only [path]; rfl⟩

end Call

/-- `WEBSES` occurs in a text. -/
def mentionsWebses (text : String) : Bool :=
  isIn "WEBSES".toList text.toList

/-- The name occurs in the URL of a call exactly when it occurs in the host or in the path. -/
theorem mentionsWebses_url {scheme : String} (known : scheme ∈ ["https", "http"])
    (client : AspClient) (call : Call) :
    mentionsWebses (scheme ++ "://" ++ client.host ++ ":" ++ toString client.port ++ call.path) =
        true ↔
      mentionsWebses client.host = true ∨ mentionsWebses call.path = true := by
  rcases call.path_eq_cons with ⟨rest, slash⟩
  have digits : ¬ "WEBSES".toList <:+: (toString client.port).toList := by
    intro occurs
    have letter : 'W' ∈ Nat.toDigits 10 client.port := by
      simpa using occurs.subset (show 'W' ∈ "WEBSES".toList by decide)
    exact absurd (Nat.isDigit_of_mem_toDigits (by decide) (by decide) letter) (by decide)
  have noScheme : ¬ "WEBSES".toList <:+: (scheme ++ ":/").toList := by
    simp only [List.mem_cons, List.not_mem_nil, or_false] at known
    rcases known with rfl | rfl <;> decide
  have url : (scheme ++ "://" ++ client.host ++ ":" ++ toString client.port ++
      call.path).toList = (scheme ++ ":/").toList ++ '/' :: (client.host.toList ++ ':' ::
        ((toString client.port).toList ++ '/' :: rest)) := by
    simp [slash]
  simp only [mentionsWebses, isIn, decide_eq_true_eq, url, slash]
  constructor
  · intro occurs
    rcases infix_append_cons (by decide) occurs with inScheme | occurs
    · exact absurd inScheme noScheme
    rcases infix_append_cons (by decide) occurs with inHost | occurs
    · exact .inl inHost
    rcases infix_append_cons (by decide) occurs with inPort | inPath
    · exact absurd inPort digits
    · exact .inr (inPath.trans (List.infix_cons_iff.mpr (.inr (List.infix_refl _))))
  · rintro (inHost | inPath)
    · exact inHost.trans ⟨(scheme ++ "://").toList,
        ':' :: ((toString client.port).toList ++ '/' :: rest), by simp⟩
    · exact inPath.trans ⟨(scheme ++ "://" ++ client.host ++ ":" ++ toString client.port).toList,
        [], by simp⟩

theorem AspClient.mem_headers_csrftoken {client : AspClient} {url token : String} :
    ("CSRFTOKEN", token) ∈ client.headers url ↔
      client.csrfToken = some token ∧ token ≠ "" ∧ mentionsWebses url = false := by
  unfold AspClient.headers
  rw [List.mem_append]
  refine Iff.trans (or_iff_right ?_) ?_
  · cases client.sessionCookie with
    | none => simp
    | some cookie =>
        dsimp only
        split_ifs <;> simp
  cases client.csrfToken with
  | none => simp
  | some held =>
      dsimp only
      rw [← mentionsWebses]
      split_ifs with without
      · simp only [List.not_mem_nil, Option.some.injEq, false_iff, not_and]
        rintro rfl nonempty
        simpa [nonempty] using without
      · simp only [not_or, Bool.not_eq_true] at without
        simp only [List.mem_singleton, Prod.mk.injEq, true_and, Option.some.injEq]
        constructor
        · rintro rfl
          exact ⟨rfl, without⟩
        · exact fun same => same.1.symm

namespace Session

/-- The credentials are those of the response of the most recent successful login. -/
structure Consistent (s : Session) : Prop where
  cookie : s.client.sessionCookie = s.granted.bind (fieldValue sessionCookieRe)
  token : s.client.csrfToken = s.granted.bind (tokenValue csrftokenRe)
  usable : ∀ cookie, s.client.sessionCookie = some cookie →
    cookie ≠ "" ∧ looksLikeFailedLogin cookie = false
  granting : s.client.sessionCookie = none → s.granted = none

variable {ω ν : Type} (readers : BodyReaders ω ν)

/-- What a call does with the credentials. -/
structure Respects (s : Session) (call : Call) : Prop where
  failedLogin : ∀ exn, (call.perform readers s.client s.http).1 = .error exn →
    (s.step readers call).client = s.client
  unchanged : call ≠ .login → (s.step readers call).client = s.client
  bareLogin : call = .login → ∀ request ∈ s.sent readers call, ∀ token,
    ("CSRFTOKEN", token) ∉ request.headers
  attached : call ≠ .login → ∀ token, s.client.csrfToken = some token →
    ∀ request ∈ s.sent readers call, ("CSRFTOKEN", token) ∈ request.headers

/-- The run keeps the credentials consistent and every call of it respects them. -/
def Upholds (s : Session) (calls : List Call) : Prop :=
  (s.run readers calls).Consistent ∧
    ∀ earlier call later, calls = earlier ++ call :: later →
      (s.run readers earlier).Consistent ∧ (s.run readers earlier).Respects readers call

theorem step_client (s : Session) (call : Call) :
    (s.step readers call).client = (call.perform readers s.client s.http).2.1 :=
  rfl

theorem step_http (s : Session) (call : Call) :
    (s.step readers call).http = (call.perform readers s.client s.http).2.2 :=
  rfl

theorem step_granted_of_ne {call : Call} (other : call ≠ .login) (s : Session) :
    (s.step readers call).granted = s.granted := by
  cases call with
  | login => exact absurd rfl other
  | getSessionToken | allocateMediaSession | getWebvar | postWebvar | setWebvar | getHostStatus
  | setPower => rfl

/-- A login either fails and changes nothing that is stored, or stores the credentials of
the response that has just arrived. -/
theorem step_login_cases (s : Session) :
    (∃ exn, (Call.login.perform readers s.client s.http).1 = .error exn ∧
      (s.step readers .login).client = s.client ∧
      (s.step readers .login).granted = s.granted) ∨
    ∃ body cookie reply, (Call.login.perform readers s.client s.http).1 = .ok reply ∧
      (s.step readers .login).granted = some body ∧
      fieldValue sessionCookieRe body = some cookie ∧ cookie ≠ "" ∧
      looksLikeFailedLogin cookie = false ∧
      (s.step readers .login).client =
        { s.client with
          sessionCookie := some cookie
          csrfToken := tokenValue csrftokenRe body } := by
  unfold step Call.perform
  rcases s.client.login_cases s.http with ⟨exn, failed, kept⟩ |
    ⟨body, cookie, ok, last, field, nonempty, accepted, stored⟩
  · left
    rcases outcome : s.client.login s.http with ⟨result, client, http⟩
    rw [outcome] at failed kept
    dsimp only at failed kept
    subst failed kept
    exact ⟨exn, rfl, rfl, rfl⟩
  · right
    rcases outcome : s.client.login s.http with ⟨result, client, http⟩
    rw [outcome] at ok last stored
    dsimp only at ok last stored
    subst ok stored
    exact ⟨body, cookie, .text cookie, rfl, last, field, nonempty, accepted, rfl⟩

theorem Consistent.of_eq {s s' : Session} (consistent : s.Consistent)
    (client : s'.client = s.client) (granted : s'.granted = s.granted) : s'.Consistent := by
  refine ⟨?_, ?_, ?_, ?_⟩
  · rw [client, granted, consistent.cookie]
  · rw [client, granted, consistent.token]
  · rw [client]
    exact consistent.usable
  · rw [client, granted]
    exact consistent.granting

theorem Consistent.step {s : Session} (consistent : s.Consistent) (call : Call) :
    (s.step readers call).Consistent := by
  by_cases other : call = .login
  · subst other
    rcases s.step_login_cases readers with ⟨exn, -, kept, granted⟩ |
      ⟨body, cookie, reply, -, granted, field, nonempty, accepted, stored⟩
    · exact consistent.of_eq kept granted
    · refine ⟨?_, ?_, ?_, ?_⟩
      · rw [stored, granted, Option.bind_some, field]
      · rw [stored, granted, Option.bind_some]
      · intro found same
        rw [stored] at same
        cases same
        exact ⟨nonempty, accepted⟩
      · rw [stored]
        exact fun none => absurd none (by simp)
  · exact consistent.of_eq (Call.perform_client readers other ..)
      (step_granted_of_ne readers other s)

theorem Consistent.run {s : Session} (consistent : s.Consistent) (calls : List Call) :
    (s.run readers calls).Consistent := by
  induction calls generalizing s with
  | nil => exact consistent
  | cons call calls ih => exact ih (consistent.step readers call)

theorem run_host (s : Session) (calls : List Call) :
    (s.run readers calls).client.host = s.client.host := by
  induction calls generalizing s with
  | nil => rfl
  | cons call calls ih =>
      refine (ih (s.step readers call)).trans ?_
      by_cases other : call = .login
      · subst other
        rcases s.step_login_cases readers with ⟨exn, -, kept, -⟩ |
          ⟨body, cookie, reply, -, -, -, -, -, stored⟩
        · rw [kept]
        · rw [stored]
      · rw [step_client, Call.perform_client readers other]

theorem sent_cases (s : Session) (call : Call) :
    (∃ n request, s.client.Addressed call.path request ∧
      s.sent readers call = List.replicate (n + 1) request) ∨
    s.client.sessionCookie = none ∧ s.sent readers call = [] := by
  unfold sent
  rw [step_http]
  rcases call.perform_sent readers s.client s.http with ⟨n, request, addressed, later⟩ |
    ⟨refused, same⟩
  · exact .inl ⟨n, request, addressed, by simp [later]⟩
  · exact .inr ⟨refused, by simp [same]⟩

theorem mentionsWebses_of_addressed {client : AspClient} {call : Call} {request : Request}
    (addressed : client.Addressed call.path request) :
    mentionsWebses request.url = false ↔
      mentionsWebses client.host = false ∧ mentionsWebses call.path = false := by
  rcases addressed.url with ⟨scheme, known, url⟩
  have mentions := mentionsWebses_url known client call
  rw [← url] at mentions
  simpa using not_congr mentions

theorem Consistent.token_ne_empty {s : Session} (consistent : s.Consistent) {token : String}
    (held : s.client.csrfToken = some token) : token ≠ "" := by
  rw [consistent.token, Option.bind_eq_some_iff] at held
  rcases held with ⟨body, -, value⟩
  simpa using (Option.filter_eq_some_iff.mp value).2

theorem Consistent.cookie_of_token {s : Session} (consistent : s.Consistent) {token : String}
    (held : s.client.csrfToken = some token) : s.client.sessionCookie ≠ none := by
  intro without
  rw [consistent.token, consistent.granting without] at held
  cases held

/-- A call respects the credentials exactly when `WEBSES` does not occur in the host and in
its path, or it is the login, or there is no token. -/
theorem Consistent.respects_iff {s : Session} (consistent : s.Consistent) (call : Call) :
    s.Respects readers call ↔
      (call ≠ .login → s.client.csrfToken ≠ none →
        mentionsWebses s.client.host = false ∧ mentionsWebses call.path = false) := by
  constructor
  · intro respects other held
    rcases Option.ne_none_iff_exists'.mp held with ⟨token, held⟩
    rcases s.sent_cases readers call with ⟨n, request, addressed, sent⟩ | ⟨refused, -⟩
    · have mem := respects.attached other token held request (by simp [sent])
      rw [addressed.headers, AspClient.mem_headers_csrftoken] at mem
      exact (mentionsWebses_of_addressed addressed).mp mem.2.2
    · exact absurd refused (consistent.cookie_of_token held)
  · intro spared
    refine ⟨?_, ?_, ?_, ?_⟩
    · intro exn failed
      by_cases other : call = .login
      · subst other
        rcases s.step_login_cases readers with ⟨-, -, kept, -⟩ | ⟨body, cookie, reply, ok, -⟩
        · exact kept
        · rw [ok] at failed
          cases failed
      · exact Call.perform_client readers other ..
    · intro other
      exact Call.perform_client readers other ..
    · rintro rfl request sent token mem
      rcases s.sent_cases readers .login with ⟨n, only, addressed, same⟩ | ⟨-, nothing⟩
      · rw [same] at sent
        rw [List.eq_of_mem_replicate sent, addressed.headers,
          AspClient.mem_headers_csrftoken] at mem
        exact absurd ((mentionsWebses_of_addressed addressed).mp mem.2.2).2 (by decide)
      · rw [nothing] at sent
        cases sent
    · intro other token held request sent
      rcases s.sent_cases readers call with ⟨n, only, addressed, same⟩ | ⟨-, nothing⟩
      · rw [same] at sent
        rw [List.eq_of_mem_replicate sent, addressed.headers, AspClient.mem_headers_csrftoken,
          mentionsWebses_of_addressed addressed]
        exact ⟨held, consistent.token_ne_empty held, spared other (by simp [held])⟩
      · rw [nothing] at sent
        cases sent

/-- A client that has just been created. -/
def start (client : AspClient) (http : Http) : Session where
  client := { client with sessionCookie := none, csrfToken := none }
  http

theorem start_consistent (client : AspClient) (http : Http) : (start client http).Consistent :=
  ⟨rfl, rfl, fun _ held => (nomatch held), fun _ => rfl⟩

/-- Every run upholds its credentials exactly when no call other than a login is made with a
token while `WEBSES` occurs in the host or in the path of the call. -/
theorem upholds_iff (client : AspClient) (http : Http) (calls : List Call) :
    (start client http).Upholds readers calls ↔
      ∀ earlier call later, calls = earlier ++ call :: later → call ≠ .login →
        ((start client http).run readers earlier).client.csrfToken ≠ none →
          mentionsWebses client.host = false ∧ mentionsWebses call.path = false := by
  have consistent : ∀ earlier, ((start client http).run readers earlier).Consistent :=
    fun earlier => (start_consistent client http).run readers earlier
  have host : ∀ earlier, ((start client http).run readers earlier).client.host = client.host :=
    fun earlier => run_host readers (start client http) earlier
  constructor
  · intro upholds earlier call later split
    have respects := ((consistent earlier).respects_iff readers call).mp
      (upholds.2 earlier call later split).2
    rw [host] at respects
    exact respects
  · intro spared
    refine ⟨consistent calls, ?_⟩
    intro earlier call later split
    refine ⟨consistent earlier, ((consistent earlier).respects_iff readers call).mpr ?_⟩
    rw [host]
    exact spared earlier call later split

/-- On a host whose name contains `WEBSES` the token of a successful login is not sent. -/
theorem not_upholds_webses :
    ¬ ∃ (ω ν : Type) (readers : BodyReaders ω ν),
      (start { host := "WEBSES.lan", password := "secret" }
        { outcomes := fun _ => .response "'SESSION_COOKIE':'abc','CSRFTOKEN':'tok'" }).Upholds
        readers [.login, .getHostStatus] := by
  rintro ⟨ω, ν, readers, upholds⟩
  rcases upholds.2 [.login] .getHostStatus [] rfl with ⟨consistent, respects⟩
  have spared := (consistent.respects_iff readers .getHostStatus).mp respects (by decide) ?_
  · rw [run_host] at spared
    exact absurd spared.1 (by decide)
  · have stored : tokenValue csrftokenRe "'SESSION_COOKIE':'abc','CSRFTOKEN':'tok'" =
        some "tok" := by
      decide +kernel
    have field : fieldValue sessionCookieRe "'SESSION_COOKIE':'abc','CSRFTOKEN':'tok'" =
        some "abc" := by
      decide +kernel
    have held : (AspClient.login { host := "WEBSES.lan", password := "secret" }
        { outcomes := fun _ => .response "'SESSION_COOKIE':'abc','CSRFTOKEN':'tok'" }).2.1.csrfToken
          = some "tok" := by
      rw [AspClient.login_of_response rfl, AspClient.readLogin, field, ← stored]
      exact congrArg (fun s : Except Exn String × AspClient => s.2.csrfToken)
        (if_neg (by decide))
    exact fun none => absurd (held.symm.trans none) (by simp)

end Session

end Asmb8Ikvm.Asp

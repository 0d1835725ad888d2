import Asmb8Ikvm.Errors
import Asmb8Ikvm.Lib.Text

/-!
# TLS trust

The trust policy of `asp.py` and the two mechanisms that enforce it: the
`ssl.SSLContext` a policy builds, and the `assert_fingerprint` option that
`AmiLegacyTlsAdapter` gives to the connection pool of the HTTP client.

Of the libraries this file has what the code relies on. A context with
`CERT_NONE` accepts every certificate; one with `CERT_REQUIRED` accepts those
with a valid chain which, with `check_hostname`, are valid for the host; and
`assert_fingerprint` rejects the certificates with another digest. Which chains
are valid for which trust store is a parameter. Without a CA path the code loads
no store into its context, and the HTTP client loads its own bundle; that the
two trust the same chains is a hypothesis, `DefaultStoresAgree`.
-/

namespace Asmb8Ikvm.Asp

/-- `TlsValidationError(message)`. -/
def tlsValidationError (message : String) (endpoint operation : Option String := none) : Exn :=
  .ikvm { errorClass := .tlsValidation, message, endpoint, operation }

def fingerprintHexLength : ℕ := 64

/-- A digit of `[0-9a-f]`. -/
def isHexDigit (c : Char) : Bool :=
  ('0' ≤ c && c ≤ '9') || ('a' ≤ c && c ≤ 'f')

/-- `_HEX_RE.match`: `$` also matches before a line break at the end. -/
def matchesHex (candidate : List Char) : Bool :=
  let digits := if candidate.getLast? = some '\n' then candidate.dropLast else candidate
  !digits.isEmpty && digits.all isHexDigit

def normalizeFingerprint (raw : String) : Except Exn String :=
  if PyText.strip raw.toList = [] then
    .error (tlsValidationError
      "tls_fingerprint must be a non-empty string containing a SHA-256 hex digest")
  else
    let candidate := PyText.lower (PyText.strip raw.toList)
    let candidate :=
      if "sha256:".toList.isPrefixOf candidate then candidate.drop "sha256:".length
      else candidate
    let candidate := (candidate.filter (· ≠ ':')).filter (· ≠ ' ')
    if candidate.length ≠ fingerprintHexLength ∨ matchesHex candidate = false then
      .error (tlsValidationError
        ("tls_fingerprint must normalize to exactly 32 bytes of hex (a SHA-256 digest); got " ++
          toString candidate.length ++ " hex character(s) after stripping colons/whitespace " ++
          "and any 'sha256:' prefix"))
    else .ok (String.ofList candidate)

def enforceTransportPolicy (useTls allowInsecureTransport : Bool) : Except Exn Unit :=
  if useTls || allowInsecureTransport then .ok ()
  else
    .error (tlsValidationError
      ("use_tls=false requires allow_insecure_transport=true. Without TLS, the BMC session " ++
        "cookie and KVM/media token cross the network in a form an on-path attacker can " ++
        "recover. Set allow_insecure_transport=true only if this endpoint is reachable solely " ++
        "over an isolated management VLAN and cannot be upgraded to TLS."))

structure TlsTrustPolicy where
  validateCerts : Bool := true
  caPath : Option String := none
  fingerprint : Option String := none
deriving DecidableEq, Repr

/-- `ssl.CERT_NONE` and `ssl.CERT_REQUIRED`. -/
inductive VerifyMode where
  | certNone
  | certRequired
deriving DecidableEq, Repr

/-- What has been loaded into a context: nothing, the bundle the HTTP client falls back
to, or the file of `load_verify_locations`. -/
inductive TrustStore where
  | unloaded
  | clientDefault
  | bundle (path : String)
deriving DecidableEq, Repr

/-- The settings of an `ssl.SSLContext` that the code makes. -/
structure SslContext where
  ciphers : String
  checkHostname : Bool
  verifyMode : VerifyMode
  trustStore : TrustStore := .unloaded
deriving DecidableEq, Repr

def bmcCiphers : String :=
  "AES256-GCM-SHA384:AES128-GCM-SHA256:AES256-SHA256:AES128-SHA256:AES256-SHA:AES128-SHA"

namespace TlsTrustPolicy

def create (validateCerts : Bool) (caPath tlsFingerprint : Option String) :
    Except Exn TlsTrustPolicy :=
  if PyText.given caPath && PyText.given tlsFingerprint then
    .error (tlsValidationError
      ("ca_path and tls_fingerprint select mutually exclusive TLS trust modes; set only one. " ++
        "tls_fingerprint is the recommended mode for this board: its factory certificate is " ++
        "self-signed and, as of this writing, already past its own expiry date, so chain " ++
        "validation via ca_path cannot succeed against it."))
  else
    match tlsFingerprint with
    | some raw =>
        if raw = "" then .ok { validateCerts, caPath }
        else
          match normalizeFingerprint raw with
          | .error exn => .error exn
          | .ok fingerprint => .ok { validateCerts, caPath, fingerprint := some fingerprint }
    | none => .ok { validateCerts, caPath }

def pinned (policy : TlsTrustPolicy) : Bool :=
  policy.fingerprint.isSome

def buildSslContext (policy : TlsTrustPolicy) : SslContext :=
  if policy.pinned || !policy.validateCerts then
    { ciphers := bmcCiphers, checkHostname := false, verifyMode := .certNone }
  else
    { ciphers := bmcCiphers
      checkHostname := true
      verifyMode := .certRequired
      trustStore :=
        match policy.caPath with
        | some path => if path = "" then .unloaded else .bundle path
        | none => .unloaded }

end TlsTrustPolicy

/-- The leaf certificate a peer presents: its SHA-256 digest and the host names it is
valid for. -/
structure Certificate where
  digest : Bytes
  length_digest : digest.length = 32
  validFor : String → Bool

/-- The digest in the form of a normalized fingerprint. -/
def Certificate.sha256 (certificate : Certificate) : String :=
  String.join (certificate.digest.map PyText.hex2)

/-- The certificates whose chain is valid for a trust store. -/
abbrev ChainValid :=
  TrustStore → Certificate → Bool

/-- A context with nothing loaded and the HTTP client's own bundle trust the same chains,
those of the platform's default trust store. -/
def DefaultStoresAgree (chainValid : ChainValid) : Prop :=
  ∀ certificate, chainValid .unloaded certificate = chainValid .clientDefault certificate

/-- The certificates a handshake under the context accepts. -/
def SslContext.accepts (chainValid : ChainValid) (context : SslContext)
    (serverHostname : Option String) (certificate : Certificate) : Bool :=
  match context.verifyMode with
  | .certNone => true
  | .certRequired =>
      chainValid context.trustStore certificate &&
        (!context.checkHostname || serverHostname.any certificate.validFor)

/-- The argument `verify` of a `requests` connection. -/
inductive Verify where
  | off
  | default
  | bundle (path : String)
deriving DecidableEq, Repr

/-- What `HTTPAdapter.cert_verify` of the HTTP client makes of the connection's context. -/
def SslContext.withVerify (verify : Verify) (context : SslContext) : SslContext :=
  match verify with
  | .off => { context with verifyMode := .certNone }
  | .default => { context with verifyMode := .certRequired, trustStore := .clientDefault }
  | .bundle path => { context with verifyMode := .certRequired, trustStore := .bundle path }

/-- `AmiLegacyTlsAdapter`: the options `init_poolmanager` gives to the pool. -/
structure AmiLegacyTlsAdapter where
  policy : TlsTrustPolicy
  sslContext : SslContext
  assertFingerprint : Option String
deriving DecidableEq, Repr

def TlsTrustPolicy.buildAdapter (policy : TlsTrustPolicy) : AmiLegacyTlsAdapter where
  policy
  sslContext := policy.buildSslContext
  assertFingerprint := if policy.pinned then policy.fingerprint else none

namespace AmiLegacyTlsAdapter

/-- The `effective_verify` of `AmiLegacyTlsAdapter.cert_verify`. -/
def effectiveVerify (adapter : AmiLegacyTlsAdapter) (verify : Verify) : Verify :=
  if adapter.policy.pinned || !adapter.policy.validateCerts then .off
  else
    match adapter.policy.caPath with
    | some path => if path = "" then verify else .bundle path
    | none => verify

/-- The certificates a connection of the adapter's pool accepts. The client leaves the
session's own `verify` at its default. -/
def accepts (chainValid : ChainValid) (adapter : AmiLegacyTlsAdapter) (host : String)
    (certificate : Certificate) : Bool :=
  (adapter.sslContext.withVerify (adapter.effectiveVerify .default)).accepts chainValid
      (some host) certificate &&
    adapter.assertFingerprint.all fun fingerprint => certificate.sha256 == fingerprint

end AmiLegacyTlsAdapter

/-- The settings select the pinned mode: a fingerprint is given that can be normalized, and
no CA path. -/
def Pins (caPath tlsFingerprint : Option String) (pin : String) : Prop :=
  PyText.given caPath = false ∧
    ∃ raw, tlsFingerprint = some raw ∧ raw ≠ "" ∧ normalizeFingerprint raw = .ok pin

theorem TlsTrustPolicy.create_of_pins {caPath tlsFingerprint : Option String} {pin : String}
    (pins : Pins caPath tlsFingerprint pin) (validateCerts : Bool) :
    create validateCerts caPath tlsFingerprint =
      .ok { validateCerts, caPath, fingerprint := some pin } := by
  rcases pins with ⟨path, raw, rfl, nonempty, normalized⟩
  simp only [create, path, Bool.false_and, Bool.false_eq_true, if_false, if_neg nonempty,
    normalized]

theorem TlsTrustPolicy.create_of_not_pins {caPath tlsFingerprint : Option String}
    (unpinned : ∀ pin, ¬ Pins caPath tlsFingerprint pin) (validateCerts : Bool) :
    (∃ exn, create validateCerts caPath tlsFingerprint = .error exn) ∨
    (create validateCerts caPath tlsFingerprint = .ok { validateCerts, caPath } ∧
      PyText.given tlsFingerprint = false) := by
  unfold create
  rcases tlsFingerprint with _ | raw
  · exact .inr ⟨by simp [PyText.given], rfl⟩
  · by_cases empty : raw = ""
    · subst empty
      exact .inr ⟨by simp [PyText.given], rfl⟩
    · have set : PyText.given (some raw) = true := by simp [PyText.given, empty]
      cases path : PyText.given caPath with
      | true => exact .inl ⟨_, if_pos set⟩
      | false =>
          simp only [Bool.false_and, Bool.false_eq_true, if_false, if_neg empty]
          cases normalized : normalizeFingerprint raw with
          | error exn => exact .inl ⟨exn, rfl⟩
          | ok pin => exact absurd ⟨path, raw, rfl, empty, normalized⟩ (unpinned pin)

theorem AmiLegacyTlsAdapter.accepts_of_unpinned {chainValid : ChainValid}
    (oneStore : DefaultStoresAgree chainValid) {policy : TlsTrustPolicy}
    (unpinned : policy.fingerprint = none) (host : String) (certificate : Certificate) :
    policy.buildAdapter.accepts chainValid host certificate =
      policy.buildSslContext.accepts chainValid (some host) certificate := by
  rcases policy with ⟨validateCerts, caPath, fingerprint⟩
  obtain rfl : fingerprint = none := unpinned
  cases validateCerts with
  | false => rfl
  | true =>
      rcases caPath with _ | path
      · simp [accepts, effectiveVerify, TlsTrustPolicy.buildAdapter, SslContext.accepts,
          TlsTrustPolicy.buildSslContext, TlsTrustPolicy.pinned, SslContext.withVerify,
          oneStore certificate]
      · by_cases empty : path = ""
        · simp [accepts, effectiveVerify, TlsTrustPolicy.buildAdapter, SslContext.accepts,
            TlsTrustPolicy.buildSslContext, TlsTrustPolicy.pinned, SslContext.withVerify, empty,
            oneStore certificate]
        · simp [accepts, effectiveVerify, TlsTrustPolicy.buildAdapter,
            TlsTrustPolicy.buildSslContext, TlsTrustPolicy.pinned, SslContext.withVerify, empty]

/-- With a pin the adapter accepts exactly the certificates with the pinned digest. -/
theorem AmiLegacyTlsAdapter.accepts_of_pinned (chainValid : ChainValid)
    {policy : TlsTrustPolicy} {pin : String} (pinned : policy.fingerprint = some pin)
    (host : String) (certificate : Certificate) :
    policy.buildAdapter.accepts chainValid host certificate = true ↔ certificate.sha256 = pin := by
  simp [accepts, effectiveVerify, TlsTrustPolicy.buildAdapter, TlsTrustPolicy.pinned, pinned,
    SslContext.withVerify, SslContext.accepts]

end Asmb8Ikvm.Asp

import Asmb8Ikvm.Asp.Tls
import Asmb8Ikvm.Ivtp.Transport

/-!
# The console's connection to the KVM listener

`ivtp.SocketTransport.connect` and `build_kvm_transport` of `asmb8_console.py`.
The console hands the context of its trust policy to the dial and nothing else,
so on this channel a policy is enforced as far as its context enforces it. For a
pinned policy that is not at all: the pin is enforced by the adapter of the HTTP
channel only.
-/

namespace Asmb8Ikvm.Console

open Asp ByteStream

/-- How `socket.create_connection` fails. -/
inductive DialFault where
  | timeout
  | oserror (text : String)
deriving DecidableEq, Repr

/-- The other end of a connection: what dialing it gives, the certificate it presents, the
text of the `SSLError` when that is not accepted, and the error, if any, that breaks the
handshake off. -/
structure Peer where
  dialed : Except DialFault Sock
  certificate : Certificate
  sslError : String
  interrupted : Option String := none

section Channels

variable (chainValid : ChainValid)

def connect (host : String) (port : ℕ) (sslContext : Option SslContext) (peer : Peer) :
    Except Exn Ivtp.SocketTransport :=
  let endpoint := host ++ ":" ++ toString port
  match peer.dialed with
  | .error .timeout =>
      .error (connectionError ("ivtp: timed out connecting to " ++ endpoint) "ivtp.connect"
        (some endpoint))
  | .error (.oserror text) =>
      .error (connectionError ("ivtp: could not connect to " ++ endpoint ++ ": " ++ text)
        "ivtp.connect" (some endpoint))
  | .ok sock =>
      match sslContext with
      | none => .ok { sock }
      | some context =>
          let serverHostname := if context.checkHostname then some host else none
          match peer.interrupted with
          | some text =>
              .error (connectionError
                ("ivtp: could not establish TLS with " ++ endpoint ++ ": " ++ text)
                "ivtp.connect" (some endpoint))
          | none =>
              if context.accepts chainValid serverHostname peer.certificate then .ok { sock }
              else
                .error (tlsValidationError
                  ("ivtp: TLS handshake with " ++ endpoint ++ " failed: " ++ peer.sslError)
                  (some endpoint) (some "ivtp.connect"))

/-- The parameters of `asmb8_console` that `build_kvm_transport` reads. -/
structure Params where
  host : String
  kvmPort : ℕ
  validateCerts : Bool
  caPath : Option String
  tlsFingerprint : Option String
deriving DecidableEq, Repr

def buildKvmTransport (params : Params) (kvmSecure : Bool) (peer : Peer) :
    Except Exn Ivtp.SocketTransport :=
  if kvmSecure then
    match TlsTrustPolicy.create params.validateCerts params.caPath params.tlsFingerprint with
    | .error exn => .error exn
    | .ok policy =>
        connect chainValid params.host params.kvmPort (some policy.buildSslContext) peer
  else connect chainValid params.host params.kvmPort none peer

/-- A peer that can be reached and presents the certificate is accepted on the secure KVM
channel. -/
def KvmAccepts (params : Params) (certificate : Certificate) : Prop :=
  ∀ sock sslError, ∃ transport,
    buildKvmTransport chainValid params true { dialed := .ok sock, certificate, sslError } =
      .ok transport

/-- The certificate is accepted on the HTTP channel under the same settings. -/
def HttpAccepts (params : Params) (certificate : Certificate) : Prop :=
  ∃ policy,
    TlsTrustPolicy.create params.validateCerts params.caPath params.tlsFingerprint = .ok policy ∧
      policy.buildAdapter.accepts chainValid params.host certificate = true

/-- The two channels accept the same certificates, and a fingerprint that is set is
enforced on the KVM channel. -/
structure PinProtects (params : Params) : Prop where
  same : {certificate | KvmAccepts chainValid params certificate} =
    {certificate | HttpAccepts chainValid params certificate}
  enforced : ∀ raw, params.tlsFingerprint = some raw → raw ≠ "" →
    ∀ certificate, KvmAccepts chainValid params certificate →
      normalizeFingerprint raw = .ok certificate.sha256

/-- What the KVM channel accepts is decided by the context of the policy alone. -/
theorem kvmAccepts_iff (params : Params) (certificate : Certificate) :
    KvmAccepts chainValid params certificate ↔
      ∃ policy,
        TlsTrustPolicy.create params.validateCerts params.caPath params.tlsFingerprint =
          .ok policy ∧
        policy.buildSslContext.accepts chainValid (some params.host) certificate = true := by
  unfold KvmAccepts buildKvmTransport
  rcases created : TlsTrustPolicy.create params.validateCerts params.caPath
      params.tlsFingerprint with exn | policy
  · simp only [if_true, reduceCtorEq, exists_false, false_and, iff_false, not_forall]
    exact ⟨{ inbound := [] }, "", not_false⟩
  · have hostname : policy.buildSslContext.accepts chainValid
          (if policy.buildSslContext.checkHostname then some params.host else none) certificate =
        policy.buildSslContext.accepts chainValid (some params.host) certificate := by
      cases checked : policy.buildSslContext.checkHostname with
      | true => rfl
      | false => simp [SslContext.accepts, checked]
    simp only [if_true, connect, hostname, Except.ok.injEq, exists_eq_left']
    cases policy.buildSslContext.accepts chainValid (some params.host) certificate with
    | true => simp
    | false =>
        simp only [Bool.false_eq_true, if_false, reduceCtorEq, exists_false, iff_false, not_forall]
        exact ⟨{ inbound := [] }, "", not_false⟩

/-- A certificate whose digest repeats one byte. -/
def certificateOf (byte : UInt8) : Certificate where
  digest := List.replicate 32 byte
  length_digest := List.length_replicate
  validFor _ := false

theorem exists_sha256_ne (pin : String) :
    ∃ certificate : Certificate, certificate.sha256 ≠ pin := by
  by_cases zero : (certificateOf 0).sha256 = pin
  · refine ⟨certificateOf 1, ?_⟩
    rw [← zero]
    decide
  · exact ⟨_, zero⟩

/-- A pinned policy lets every certificate through on the KVM channel. -/
theorem kvmAccepts_of_pins {params : Params} {pin : String}
    (pins : Pins params.caPath params.tlsFingerprint pin) (certificate : Certificate) :
    KvmAccepts chainValid params certificate :=
  (kvmAccepts_iff chainValid params certificate).mpr
    ⟨_, TlsTrustPolicy.create_of_pins pins _, rfl⟩

/-- Under a pinned policy the HTTP channel accepts the pinned certificate only. -/
theorem httpAccepts_iff_of_pins {params : Params} {pin : String}
    (pins : Pins params.caPath params.tlsFingerprint pin) (certificate : Certificate) :
    HttpAccepts chainValid params certificate ↔ certificate.sha256 = pin := by
  simp only [HttpAccepts, TlsTrustPolicy.create_of_pins pins, Except.ok.injEq, exists_eq_left']
  exact AmiLegacyTlsAdapter.accepts_of_pinned chainValid rfl params.host certificate

end Channels

/-- The pin protects the KVM channel as it protects the HTTP channel exactly when no pin
is in force: no fingerprint is given, or the settings are refused. -/
theorem pinProtects_iff {chainValid : ChainValid} (oneStore : DefaultStoresAgree chainValid)
    (params : Params) :
    PinProtects chainValid params ↔ ∀ pin, ¬ Pins params.caPath params.tlsFingerprint pin := by
  constructor
  · intro protects pin pins
    rcases exists_sha256_ne pin with ⟨certificate, different⟩
    have accepted : certificate ∈ {certificate | HttpAccepts chainValid params certificate} := by
      rw [← protects.same]
      exact kvmAccepts_of_pins chainValid pins certificate
    exact different ((httpAccepts_iff_of_pins chainValid pins certificate).mp accepted)
  · intro unpinned
    rcases TlsTrustPolicy.create_of_not_pins unpinned params.validateCerts with
      ⟨exn, refused⟩ | ⟨created, notGiven⟩
    · refine ⟨?_, ?_⟩
      · ext certificate
        simp [kvmAccepts_iff, HttpAccepts, refused]
      · intro raw _ _ certificate accepted
        simp [kvmAccepts_iff, refused] at accepted
    · refine ⟨?_, ?_⟩
      · ext certificate
        simp only [Set.mem_ofPred_eq, kvmAccepts_iff, HttpAccepts, created, Except.ok.injEq,
          exists_eq_left']
        rw [AmiLegacyTlsAdapter.accepts_of_unpinned oneStore rfl]
      · intro raw given nonempty
        rw [given] at notGiven
        simp [PyText.given, nonempty] at notGiven

/-- One authority has issued one certificate, and no default store knows it. -/
def privateAuthority : ChainValid
  | .bundle path, certificate =>
      path == "/etc/ssl/bmc.pem" && certificate.digest == (certificateOf 1).digest
  | _, _ => false

/-- The KVM settings of a session with a CA path or a fingerprint. -/
def kvmParams (caPath tlsFingerprint : Option String) : Params where
  host := "bmc"
  kvmPort := 7578
  validateCerts := true
  caPath
  tlsFingerprint

/-- A fingerprint of the digest 0xaa..aa. -/
def repeatedPin : String :=
  "aaaaaaaaaaaaaaaaaaaaaaaaaaaaaaaaaaaaaaaaaaaaaaaaaaaaaaaaaaaaaaaa"

theorem pins_repeatedPin : Pins none (some repeatedPin) repeatedPin :=
  ⟨rfl, _, rfl, by decide, by decide +kernel⟩

/-- With the authority's path the channels agree, with a fingerprint they do not. -/
theorem pinProtects_privateAuthority :
    PinProtects privateAuthority (kvmParams (some "/etc/ssl/bmc.pem") none) ∧
      ¬ PinProtects privateAuthority (kvmParams none (some repeatedPin)) := by
  refine ⟨(pinProtects_iff (fun _ => rfl) _).mpr ?_, ?_⟩
  · rintro pin ⟨notGiven, -⟩
    cases notGiven
  · intro protects
    exact (pinProtects_iff (fun _ => rfl) _).mp protects _ pins_repeatedPin

/-- A self-signed certificate with another digest than the pinned one is accepted on the
KVM channel. -/
theorem kvmAccepts_unpinned_certificate :
    KvmAccepts privateAuthority (kvmParams none (some repeatedPin)) (certificateOf 0) ∧
      ¬ HttpAccepts privateAuthority (kvmParams none (some repeatedPin)) (certificateOf 0) := by
  refine ⟨kvmAccepts_of_pins _ pins_repeatedPin _, ?_⟩
  rw [httpAccepts_iff_of_pins _ pins_repeatedPin]
  decide +kernel

end Asmb8Ikvm.Console

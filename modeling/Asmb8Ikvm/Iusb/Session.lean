import Asmb8Ikvm.Lib.Loop
import Asmb8Ikvm.Iusb.Transport

/-!
# The serve loop

`Session.serve_forever` of `iusb.py`. The callbacks act on a state of their own,
the heap, and may raise. Next to what the code computes the model keeps a trace:
at which position of the stream each read of a header begins, at which position
`on_idle` is called, and which packets reach `on_request` and the handler.

The loop is in step with a stream of frames as long as no poll timeout falls
between the header of a frame and its payload. There `read_packet` reports an
idle poll although the header has been consumed, and the next read of a header
begins in the middle of a frame.
-/

namespace Asmb8Ikvm.Iusb

open Bytes ByteStream

universe u

/-- The values `serve_forever` returns. -/
inductive ServeResult where
  | stopped
  | peerClosed
  | killed
deriving DecidableEq, Repr

/-- The arguments of `serve_forever`; an absent callback does nothing. -/
structure Callbacks (σ : Type u) where
  handle : Packet → σ → Except Exn (Option Bytes) × σ
  shouldStop : σ → Except Exn Bool × σ := fun heap => (.ok false, heap)
  onIdle : σ → Except Exn Unit × σ := fun heap => (.ok (), heap)
  onRequest : Packet → σ → Except Exn Unit × σ := fun _ heap => (.ok (), heap)

/-- What the trace of a run records. Positions count the bytes received so far. -/
inductive Event where
  | read (position : ℕ)
  | idle (position : ℕ)
  | request (packet : Packet)
  | handle (packet : Packet)
  | raised (exn : Exn)
deriving DecidableEq, Repr

/-- The state of the serve loop. -/
structure Serving (σ : Type u) where
  transport : SocketTransport
  heap : σ
  trace : List Event := []

namespace Serving

variable {σ : Type u}

def log (event : Event) (s : Serving σ) : Serving σ :=
  { s with trace := s.trace ++ [event] }

/-- A callback has raised: the exception leaves `serve_forever`. -/
def raise (exn : Exn) (heap : σ) (s : Serving σ) :
    Loop.Step (Serving σ) (Except Exn ServeResult) :=
  .done (.error exn) ({ s with heap }.log (.raised exn))

/-- The rest of a round once a request has been read. -/
def serveRequest (calls : Callbacks σ) (deviceType : ℤ) (req : Packet) (s : Serving σ) :
    Loop.Step (Serving σ) (Except Exn ServeResult) :=
  let s := s.log (.request req)
  match calls.onRequest req s.heap with
  | (.error exn, heap) => s.raise exn heap
  | (.ok (), heap) =>
      let s := { s with heap }.log (.handle req)
      match calls.handle req s.heap with
      | (.error exn, heap) => s.raise exn heap
      | (.ok none, heap) => .again { s with heap }
      | (.ok (some payload), heap) =>
          let frame := buildResponseFrame req.header payload deviceType
          match s.transport.writeFrame frame with
          | (.error exn, transport) => .done (.error exn) { s with heap, transport }
          | (.ok (), transport) => .again { s with heap, transport }

/-- One round of `serve_forever`. -/
def serveRound (calls : Callbacks σ) (deviceType : ℤ) (s : Serving σ) :
    Loop.Step (Serving σ) (Except Exn ServeResult) :=
  match calls.shouldStop s.heap with
  | (.error exn, heap) => s.raise exn heap
  | (.ok true, heap) => .done (.ok .stopped) { s with heap }
  | (.ok false, heap) =>
      let s := { s with heap }.log (.read s.transport.sock.received)
      match s.transport.readPacket with
      | (.error .idleTimeout, transport) =>
          let s := { s with transport }.log (.idle transport.sock.received)
          match calls.onIdle s.heap with
          | (.error exn, heap) => s.raise exn heap
          | (.ok (), heap) => .again { s with heap }
      | (.error (.eofError _), transport) => .done (.ok .peerClosed) { s with transport }
      | (.error exn, transport) => .done (.error exn) { s with transport }
      | (.ok req, transport) =>
          if req.isKill then .done (.ok .killed) { s with transport }
          else { s with transport }.serveRequest calls deviceType req

/-- The amount of input left. -/
def remaining (s : Serving σ) : ℕ :=
  s.transport.sock.items.length

theorem serveRequest_remaining {calls : Callbacks σ} {deviceType : ℤ} {req : Packet}
    {s next : Serving σ} (round : s.serveRequest calls deviceType req = .again next) :
    next.remaining = s.remaining := by
  unfold serveRequest at round
  dsimp only at round
  split at round
  case h_1 => cases round
  case h_2 =>
    split at round
    case h_1 => cases round
    case h_2 =>
      cases round
      rfl
    case h_3 payload heap _ =>
      split at round
      case h_1 => cases round
      case h_2 transport written =>
        cases round
        have items := SocketTransport.writeFrame_items
          (buildResponseFrame req.header payload deviceType) s.transport
        simp only [log] at written
        rw [written] at items
        simp only [remaining, items]

theorem serveRound_decreases (calls : Callbacks σ) (deviceType : ℤ) :
    Loop.Decreases remaining (serveRound calls deviceType) := by
  intro s next round
  have consumed := s.transport.length_readPacket_lt
  unfold serveRound at round
  split at round
  case h_1 => cases round
  case h_2 => cases round
  case h_3 =>
    dsimp only [log] at round
    split at round
    case h_1 transport reading =>
      rw [reading] at consumed
      split at round
      case h_1 => cases round
      case h_2 =>
        cases round
        simpa [remaining] using consumed
    case h_2 => cases round
    case h_3 => cases round
    case h_4 req transport reading =>
      rw [reading] at consumed
      split at round
      · cases round
      · have same := serveRequest_remaining round
        rw [same]
        simpa [remaining] using consumed

end Serving

structure Session where
  transport : SocketTransport
  deviceType : ℤ := deviceCdrom
  instanceNumber : ℤ := 0

def Session.serveForever {σ : Type u} (calls : Callbacks σ) (heap : σ) (session : Session) :
    Except Exn ServeResult × Serving σ :=
  Loop.run Serving.remaining (Serving.serveRound calls session.deviceType)
    (Serving.serveRound_decreases calls session.deviceType)
    { transport := session.transport, heap }

/-- The rule of the serve loop: `Inv` holds between the rounds, `Mid` once `on_request` has
returned, and `Post` of the result, each of the trace and the heap. -/
structure Callbacks.Ensures {σ : Type u} (calls : Callbacks σ) (Inv : List Event → σ → Prop)
    (Mid : Packet → List Event → σ → Prop)
    (Post : Except Exn ServeResult → List Event → σ → Prop) : Prop where
  check : ∀ {trace heap}, Inv trace heap → Inv trace (calls.shouldStop heap).2
  read : ∀ {trace heap} position, Inv trace heap → Inv (trace ++ [.read position]) heap
  idle : ∀ {trace heap} position, Inv trace heap →
    Inv (trace ++ [.idle position]) (calls.onIdle heap).2
  request : ∀ {trace heap} req later, Inv trace heap →
    calls.onRequest req heap = (.ok (), later) → Mid req (trace ++ [.request req]) later
  handle : ∀ {trace heap} req answer later, Mid req trace heap →
    calls.handle req heap = (.ok answer, later) → Inv (trace ++ [.handle req]) later
  requestRaises : ∀ {trace heap} req exn later, Inv trace heap →
    calls.onRequest req heap = (.error exn, later) →
    Post (.error exn) (trace ++ [.request req] ++ [.raised exn]) later
  handleRaises : ∀ {trace heap} req exn later, Mid req trace heap →
    calls.handle req heap = (.error exn, later) →
    Post (.error exn) (trace ++ [.handle req] ++ [.raised exn]) later
  raised : ∀ {trace heap} exn, Inv trace heap →
    Post (.error exn) (trace ++ [.raised exn]) heap
  ended : ∀ {trace heap} result, Inv trace heap → Post result trace heap

namespace Callbacks.Ensures

variable {σ : Type u} {calls : Callbacks σ} {Inv : List Event → σ → Prop}
  {Mid : Packet → List Event → σ → Prop}
  {Post : Except Exn ServeResult → List Event → σ → Prop}

theorem serveRequest (ensures : calls.Ensures Inv Mid Post) (deviceType : ℤ) (req : Packet)
    {s : Serving σ} (start : Inv s.trace s.heap) :
    (s.serveRequest calls deviceType req).Satisfies (fun next => Inv next.trace next.heap)
      (fun result final => Post result final.trace final.heap) := by
  unfold Serving.serveRequest Serving.raise Serving.log
  rcases onRequest : calls.onRequest req s.heap with ⟨exn | _, heap⟩
  · simp only [onRequest]
    exact ensures.requestRaises req exn heap start onRequest
  · have requested := ensures.request req heap start onRequest
    simp only [onRequest]
    rcases handling : calls.handle req heap with ⟨exn | answer, later⟩
    · exact ensures.handleRaises req exn later requested handling
    · have handled := ensures.handle req answer later requested handling
      cases answer with
      | none => exact handled
      | some payload =>
          dsimp only
          rcases s.transport.writeFrame (buildResponseFrame req.header payload deviceType) with
            ⟨exn | _, transport⟩
          · exact ensures.ended _ handled
          · exact handled

theorem serveRound (ensures : calls.Ensures Inv Mid Post) (deviceType : ℤ) {s : Serving σ}
    (start : Inv s.trace s.heap) :
    (s.serveRound calls deviceType).Satisfies (fun next => Inv next.trace next.heap)
      (fun result final => Post result final.trace final.heap) := by
  have checked := ensures.check start
  unfold Serving.serveRound Serving.raise Serving.log
  rcases shouldStop : calls.shouldStop s.heap with ⟨exn | _ | _, heap⟩
  · rw [shouldStop] at checked
    exact ensures.raised exn checked
  · rw [shouldStop] at checked
    have reading := ensures.read s.transport.sock.received checked
    dsimp only
    split
    next transport _ =>
      have idle := ensures.idle transport.sock.received reading
      rcases onIdle : calls.onIdle heap with ⟨exn | _, later⟩
      · rw [onIdle] at idle
        exact ensures.raised exn idle
      · rw [onIdle] at idle
        exact idle
    next => exact ensures.ended _ reading
    next => exact ensures.ended _ reading
    next req transport _ =>
      split_ifs
      · exact ensures.ended _ reading
      · exact ensures.serveRequest deviceType req reading
  · rw [shouldStop] at checked
    exact ensures.ended _ checked

theorem serveForever (ensures : calls.Ensures Inv Mid Post) {heap : σ} (session : Session)
    (start : Inv [] heap) :
    Post (session.serveForever calls heap).1 (session.serveForever calls heap).2.trace
      (session.serveForever calls heap).2.heap :=
  Loop.run_spec (fun s : Serving σ => Inv s.trace s.heap)
    (fun result (final : Serving σ) => Post result final.trace final.heap)
    (fun _ inv => ensures.serveRound session.deviceType inv) start

end Callbacks.Ensures

/-- The rule for a property that every call keeps, whatever it ends in. -/
structure Callbacks.Keeps {σ : Type u} (calls : Callbacks σ) (Inv : List Event → σ → Prop) :
    Prop where
  check : ∀ {trace heap}, Inv trace heap → Inv trace (calls.shouldStop heap).2
  read : ∀ {trace heap} position, Inv trace heap → Inv (trace ++ [.read position]) heap
  idle : ∀ {trace heap} position, Inv trace heap →
    Inv (trace ++ [.idle position]) (calls.onIdle heap).2
  request : ∀ {trace heap} req, Inv trace heap →
    Inv (trace ++ [.request req]) (calls.onRequest req heap).2
  handle : ∀ {trace heap} req, Inv trace heap →
    Inv (trace ++ [.handle req]) (calls.handle req heap).2
  raised : ∀ {trace heap} exn, Inv trace heap → Inv (trace ++ [.raised exn]) heap

namespace Callbacks.Keeps

variable {σ : Type u} {calls : Callbacks σ} {Inv : List Event → σ → Prop}

theorem ensures (keeps : calls.Keeps Inv) :
    calls.Ensures Inv (fun _ => Inv) (fun _ => Inv) where
  check := keeps.check
  read := keeps.read
  idle := keeps.idle
  request req later inv called := by
    have requested := keeps.request req inv
    rw [called] at requested
    exact requested
  handle req answer later inv called := by
    have handled := keeps.handle req inv
    rw [called] at handled
    exact handled
  requestRaises req exn later inv called := by
    have requested := keeps.request req inv
    rw [called] at requested
    exact keeps.raised exn requested
  handleRaises req exn later inv called := by
    have handled := keeps.handle req inv
    rw [called] at handled
    exact keeps.raised exn handled
  raised := keeps.raised
  ended _ inv := inv

theorem serveForever (keeps : calls.Keeps Inv) {heap : σ} (session : Session)
    (start : Inv [] heap) :
    Inv (session.serveForever calls heap).2.trace (session.serveForever calls heap).2.heap :=
  keeps.ensures.serveForever session start

end Callbacks.Keeps

end Asmb8Ikvm.Iusb

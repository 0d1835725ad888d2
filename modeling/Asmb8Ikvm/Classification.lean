import Asmb8Ikvm.Iusb.Auth
import Asmb8Ikvm.Ivtp.Channel

/-!
# Which failures are classified

The callers of the two handshakes and of the frame capture catch `IkvmError` and
nothing else. Every timeout, socket error and malformed packet reaches them as
an `IkvmError`; a peer that closes the connection and a string that is not ASCII
do not.
-/

namespace Asmb8Ikvm

open ByteStream

/-- The three functions are classified exactly when the strings they reach are ASCII and
the peer does not close the connection while they wait for a packet. -/
theorem handshakes_classified_iff (media : Iusb.SocketTransport) (video : Ivtp.SocketTransport)
    (token clientIp username : String) (deviceType instanceNumber : ℤ)
    (sendGetWebToken requestRefresh : Bool) :
    (Classified (Iusb.Session.fromTransport media token deviceType instanceNumber).1 ↔
      ¬ Iusb.AuthUnclassified token media.sock) ∧
    (Classified (Ivtp.openChannel token clientIp username sendGetWebToken video).1 ↔
      ¬ Ivtp.ChannelUnclassified token clientIp username sendGetWebToken video.sock) ∧
    (Classified (Ivtp.captureOneFrame requestRefresh video).1 ↔
      ¬ Ivtp.CaptureUnclassified requestRefresh video.sock) := by
  refine ⟨?_, ?_, ?_⟩
  · exact Iusb.fromTransport_classified_iff media token deviceType instanceNumber
  · exact Ivtp.openChannel_classified_iff token clientIp username sendGetWebToken video
  · exact Ivtp.captureOneFrame_classified_iff requestRefresh video

/-- A peer that closes the connection at once, and a token that is not ASCII. -/
theorem handshakes_unclassified :
    (¬ Classified (Iusb.Session.fromTransport { sock := { inbound := [] } } "token"
        Iusb.deviceCdrom 0).1 ∧
      ¬ Classified (Ivtp.openChannel "token" "10.0.0.1" "admin" true
        { sock := { inbound := [] } }).1 ∧
      ¬ Classified (Ivtp.captureOneFrame true { sock := { inbound := [] } }).1) ∧
    (Iusb.Session.fromTransport { sock := { inbound := [] } } "tök" Iusb.deviceCdrom 0).1 =
      .error .unicodeEncodeError := by
  have cut : Truncated Ivtp.packetFormat [] := .inl (by decide)
  refine ⟨⟨?_, ?_, ?_⟩, ?_⟩
  · rw [Iusb.fromTransport_classified_iff, not_not]
    exact .inr ⟨by decide, rfl, [], rfl, .inl (by decide)⟩
  · rw [Ivtp.openChannel_classified_iff, not_not]
    exact .greeting [] rfl cut
  · rw [Ivtp.captureOneFrame_classified_iff, not_not]
    exact ⟨fun _ => rfl, HangsUp.cut cut⟩
  · have notAscii : PyText.isAscii "tök" = false := by decide
    simp [Iusb.Session.fromTransport, Iusb.Session.authenticate, Iusb.buildAuth,
      PyText.encodeAscii, notAscii]

end Asmb8Ikvm

import Asmb8Ikvm.Iusb.CacheRace
import Asmb8Ikvm.Iusb.Refinement
import Asmb8Ikvm.Iusb.Emulator
import Asmb8Ikvm.Iusb.Synchrony
import Asmb8Ikvm.Iusb.AuthToken
import Asmb8Ikvm.Ivtp.Soundness
import Asmb8Ikvm.Asp.Client
import Asmb8Ikvm.Classification
import Asmb8Ikvm.Console
import Asmb8Ikvm.Redact.Secrets
import Asmb8Ikvm.Redact.Removal
import Asmb8Ikvm.Asp.WebvarFormat
import Asmb8Ikvm.Asp.Disclosure
import Asmb8Ikvm.Asp.Jnlp
import Asmb8Ikvm.Asp.Fingerprint
import Asmb8Ikvm.Media.Progress
import Asmb8Ikvm.Media.Idle
import Asmb8Ikvm.Media.Lifecycle
import Asmb8Ikvm.Media.Trace
import Asmb8Ikvm.Media.TraceLog
import Asmb8Ikvm.Runtime.FirstRecord
import Asmb8Ikvm.Modules.Attach
import Asmb8Ikvm.HttpOrigin.Persist
import Asmb8Ikvm.HttpOrigin.Resolve
import Asmb8Ikvm.HttpOrigin.RangeService
import Asmb8Ikvm.HttpOrigin.OneResponse
import Asmb8Ikvm.Ivtp.VideoSession
import Asmb8Ikvm.Asp.Brackets
import Asmb8Ikvm.Modules.PostCode
import Asmb8Ikvm.Modules.Ntp
import Asmb8Ikvm.Modules.BootstrapImage
import Asmb8Ikvm.Evidence.Documents
import Asmb8Ikvm.Role.Handoff
import Asmb8Ikvm.Ipmi.Outcome
import Asmb8Ikvm.HttpOrigin.Daemon
import Asmb8Ikvm.HttpOrigin.Health
import Asmb8Ikvm.Iso.Refusals

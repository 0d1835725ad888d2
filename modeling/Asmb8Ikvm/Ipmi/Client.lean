import Asmb8Ikvm.Errors
import Asmb8Ikvm.Lib.OrderedDict
import Asmb8Ikvm.Lib.Planning
import Asmb8Ikvm.Lib.Text

/-!
# The IPMI client

`plugins/module_utils/ipmi.py`: `IpmiClient` and its classification of the
exceptions of `pyghmi`. The calls into `pyghmi` are the calls of a program; their
answers are what the library returns or raises.
-/

namespace Asmb8Ikvm.Ipmi

open PyText Interaction

section Pyghmi

/-- The values in the dictionaries of `pyghmi`. -/
inductive Value where
  | none
  | bool (value : Bool)
  | int (value : ℤ)
  | str (text : String)
  | bytes (value : Bytes)
deriving DecidableEq, Repr

/-- `str(value)`. -/
def Value.format : Value → String
  | .none => "None"
  | .bool true => "True"
  | .bool false => "False"
  | .int value => toString value
  | .str text => text
  | .bytes value => "bytearray(" ++ reprBytes value ++ ")"

abbrev Response := OrderedDict String Value

/-- What a call raises: exceptions of `pyghmi`, with their texts, and others. -/
inductive Raised where
  | unsupportedFunctionality (message : String)
  | pyghmiException (message : String)
  | other (message : String)
deriving DecidableEq, Repr

/-- The argument `wait` of `set_power`: a number of seconds, or `False`. -/
inductive Wait where
  | no
  | seconds (timeout : ℤ)
deriving DecidableEq, Repr

/-- The calls of a `pyghmi.ipmi.command.Command`, its construction among them. -/
inductive Call where
  | connect (host : String) (port : ℤ) (username password : String)
  | getPower
  | setPower (state : String) (wait : Wait)
  | getBootdev
  | setBootdev (device : String) (persist uefiboot : Bool)
  | resetBmc
  | rawCommand (netfn command : ℕ) (retry : Bool)
  | setIdentify (on : Bool) (duration : Option ℤ) (blink : Bool)
deriving DecidableEq, Repr

abbrev Call.Answer : Call → Type
  | .connect .. => Except Raised Unit
  | .getPower => Except Raised Response
  | .setPower .. => Except Raised Response
  | .getBootdev => Except Raised Response
  | .setBootdev .. => Except Raised Response
  | .resetBmc => Except Raised Unit
  | .rawCommand .. => Except Raised (Option Response)
  | .setIdentify .. => Except Raised Unit

end Pyghmi

section Client

/-- How a module ends other than by `exit_json`. `uncaught` is an exception that no `except`
clause names. -/
inductive Failure where
  | ikvm (error : IkvmError)
  | refused (message : String)
  | missingLibrary (name : String)
  | uncaught (message : String)
deriving DecidableEq, Repr

abbrev Script := Prog Call Call.Answer Failure

structure IpmiClient where
  host : String
  port : ℤ
  username : String
  password : String
deriving DecidableEq, Repr

/-- `DEFAULT_IPMI_PORT`. -/
def defaultIpmiPort : ℤ := 623

/-- `_SET_POWER_WAIT_TIMEOUT_MESSAGE`. -/
def setPowerWaitTimeoutMessage : String := "System did not accomplish power state change"

/-- `_AUTH_FAILURE_MARKERS`. -/
def authFailureMarkers : List String := ["password", "rakp", "unauthorized", "wrong kg"]

/-- `_TIMEOUT_MARKER`. -/
def timeoutMarker : String := "timeout"

/-- `_RESET_NETFN`. -/
def resetNetfn : ℕ := 6

/-- `_WARM_RESET_COMMAND`. -/
def warmResetCommand : ℕ := 3

/-- `_BLINK_UNSUPPORTED_MESSAGE`. -/
def blinkUnsupportedMessage : String := "Blink not supported with generic IPMI"

/-- `_classify_session_error`. -/
def classifySessionError (message : String) : ErrorClass :=
  let lowered := lower message.toList
  if authFailureMarkers.any fun marker => isIn marker.toList lowered then .authentication
  else if isIn timeoutMarker.toList lowered then .timeout
  else .connection

namespace IpmiClient

variable (client : IpmiClient)

def endpoint : String := client.host ++ ":" ++ toString client.port

def knownSecrets : List String := if client.password = "" then [] else [client.password]

/-- An error with the endpoint, the operation and the secrets of the client. -/
def error (errorClass : ErrorClass) (operation message : String) : IkvmError where
  errorClass := errorClass
  message := message
  endpoint := some client.endpoint
  operation := some operation
  secrets := client.knownSecrets

/-- `except ipmi_exceptions.PyghmiException`, of which `UnsupportedFunctionality` is one. -/
def caught (classify : String → IkvmError) : Raised → Failure
  | .unsupportedFunctionality message => .ikvm (classify message)
  | .pyghmiException message => .ikvm (classify message)
  | .other message => .uncaught message

/-- `_connect`. -/
def connect : Script Unit :=
  .call (.connect client.host client.port client.username client.password) fun answer =>
    .ofExcept (answer.mapError (caught fun text =>
      client.error (classifySessionError text) "ipmi_connect"
        ("Could not establish an IPMI session with " ++ client.endpoint ++ ": " ++ text)))

def getPowerState : Script Response :=
  .call .getPower fun answer =>
    .ofExcept (answer.mapError (caught fun text =>
      client.error .remoteOperation "get_power" ("IPMI get-power-state failed: " ++ text)))

/-- What `set_power_state` makes of an exception. -/
def setPowerError (state text : String) : IkvmError :=
  if isIn setPowerWaitTimeoutMessage.toList text.toList then
    { client.error .timeout "set_power"
        ("IPMI accepted the '" ++ state ++ "' power request, but confirmation of it timed out "
          ++ "before observing the target state (" ++ text ++ "). The BMC may already have applied "
          ++ "the transition -- re-probe (e.g. asmb8_info or asmb8_power with a read) rather than "
          ++ "blindly retrying this request.") with
      indeterminate := true }
  else
    client.error .remoteOperation "set_power"
      ("IPMI set-power-state to '" ++ state ++ "' failed: " ++ text)

def setPowerState (state : String) (wait : Wait) : Script Response :=
  .call (.setPower state wait) fun answer =>
    .ofExcept (answer.mapError (caught (client.setPowerError state)))

def getBootDevice : Script Response :=
  .call .getBootdev fun answer =>
    .ofExcept (answer.mapError (caught fun text =>
      client.error .remoteOperation "get_bootdev" ("IPMI get-boot-device failed: " ++ text)))

/-- `if 'error' in response`. -/
def accepted (operation rejection : String) (response : Response) : Except Failure Response :=
  match response.get? "error" with
  | some reason => .error (.ikvm (client.error .remoteOperation operation
      (rejection ++ reason.format)))
  | none => .ok response

def setBootDevice (device : String) (persist uefiboot : Bool) : Script Response :=
  .call (.setBootdev device persist uefiboot) fun answer =>
    .ofExcept do
      let response ← answer.mapError (caught fun text =>
        client.error .remoteOperation "set_bootdev"
          ("IPMI set-boot-device to '" ++ device ++ "' failed: " ++ text))
      client.accepted "set_bootdev" ("IPMI set-boot-device to '" ++ device ++ "' was rejected: ")
        response

/-- What `reset_bmc` makes of an exception. -/
def resetError (mode text : String) : IkvmError :=
  client.error .remoteOperation "reset_bmc" ("IPMI " ++ mode ++ " reset failed: " ++ text)

/-- `{'mode': mode, **response}`. -/
def withMode (mode : String) (response : Response) : Response :=
  response.entries.foldl (fun dict entry => dict.set entry.1 entry.2)
    (OrderedDict.empty.set "mode" (.str mode))

def resetBmc (mode : String) : Script Response :=
  if mode = "cold" then
    .call .resetBmc fun answer => .ofExcept do
      let _ ← answer.mapError (caught (client.resetError mode))
      return withMode mode .empty
  else
    .call (.rawCommand resetNetfn warmResetCommand false) fun answer => .ofExcept do
      let response ← answer.mapError (caught (client.resetError mode))
      let response ← client.accepted "reset_bmc" ("IPMI " ++ mode ++ " reset was rejected: ")
        (response.getD .empty)
      return withMode mode response

/-- The two `except` clauses of `set_identify`. -/
def identifyFailure : Raised → Failure
  | .unsupportedFunctionality text => .ikvm (client.error .unsupportedCapability "set_identify"
      ("IPMI set-identify is not supported by this endpoint: " ++ text))
  | .pyghmiException text => .ikvm (client.error
      (if isIn blinkUnsupportedMessage.toList text.toList then .unsupportedCapability
        else .remoteOperation) "set_identify" ("IPMI set-identify failed: " ++ text))
  | .other text => .uncaught text

def setIdentify (on : Bool) (duration : Option ℤ) : Script Unit :=
  .call (.setIdentify on duration false) fun answer =>
    .ofExcept (answer.mapError client.identifyFailure)

end IpmiClient

end Client

end Asmb8Ikvm.Ipmi

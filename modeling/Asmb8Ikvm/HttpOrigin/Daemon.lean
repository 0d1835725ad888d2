import Asmb8Ikvm.HttpOrigin.Persist
import Asmb8Ikvm.HttpOrigin.Resolve
import Asmb8Ikvm.Lib.Interaction
import Asmb8Ikvm.Redact

/-!
# The daemon of the HTTP origin

`_run_daemon` of `http_origin.py` with its self-test. What the main thread asks of
the operating system, of the server and of the clock are the calls of a program;
`Persist` has what becomes of the record when it and the handlers write.

Before the record says `serving` the daemon has fetched a file of its own.
-/

namespace Asmb8Ikvm.HttpOrigin

open PyText Paths Percent Interaction

namespace Daemon

section Calls

/-- What a call raises. -/
inductive Raised where
  | osError (text : String)
  | httpException (text : String)
  | other (text : String)
deriving DecidableEq, Repr

/-- A step of `os.walk`, its root left off: the directory, and the names in it that are no
directories, each with whether it is a regular file and no link. -/
structure Visit where
  dir : List Name
  fileNames : List (Name × Bool)
deriving DecidableEq, Repr

/-- The calls of the main thread. `persist` is a change of the dictionary with the `_persist`
behind it. -/
inductive Call where
  | persist (advance : Advance)
  | resolveRoot
  | bind
  | startThread
  | walk (root : Path)
  | readBytes (file : Path)
  | get (connectHost : String) (port : ℕ) (urlPath : List Char)
  | stopFlag
  | monotonic
  | sleep
  | shutdown
  | serverClose
  | joinThread
deriving DecidableEq, Repr

/-- The clock counts milliseconds. Starting a thread may fail, also that of the shutdown, and
so may looking at the files of a walk. -/
abbrev Call.Answer : Call → Type
  | .persist _ => Unit
  | .resolveRoot => Except Raised Path
  | .bind => Except Raised ℕ
  | .startThread => Except Raised Unit
  | .walk _ => Except Raised (List Visit)
  | .readBytes _ => Except Raised Bytes
  | .get _ _ _ => Except Raised (ℕ × Bytes)
  | .stopFlag => Bool
  | .monotonic => ℤ
  | .sleep => Unit
  | .shutdown => Except Raised Unit
  | .serverClose => Except Raised Unit
  | .joinThread => Unit

/-- How the process ends other than by a return. The fuel of the control loop is only used up
while the server runs. -/
inductive Failure where
  | uncaught (raised : Raised)
  | running
deriving DecidableEq, Repr

abbrev Script := Prog Call Call.Answer Failure

def call (request : Call) : Script request.Answer :=
  .ask request

/-- The part of a `SessionConfig` the daemon looks at, and what it takes from the standard
library. -/
structure Config where
  root : String
  bindAddress : String
  port : ℤ
  lifetimeSeconds : ℤ
  repr : String → String
  table : CharTable

end Calls

section SelfTest

/-- `_CONTROL_POLL_INTERVAL`. -/
def controlPollInterval : ℤ := 200

/-- `_SELF_TEST_EMPTY_ROOT_PROBE_PATH`. -/
def selfTestEmptyRootProbePath : List Char :=
  "/.asmb8-http-origin-selftest-no-file-in-root".toList

def formatBoundUrl (bindAddress : String) (port : ℕ) : String :=
  let host := if ':' ∈ bindAddress.toList then "[" ++ bindAddress ++ "]" else bindAddress
  "http://" ++ host ++ ":" ++ toString port ++ "/"

def selfTestConnectHost (bindAddress : String) : String :=
  if bindAddress = "0.0.0.0" ∨ bindAddress = "" then "127.0.0.1"
  else if bindAddress = "::" then "::1"
  else bindAddress

/-- `sorted(filenames)`. -/
def sortedNames (fileNames : List (Name × Bool)) : List (Name × Bool) :=
  fileNames.insertionSort fun first second => first.1 ≤ second.1

/-- `_find_probe_file`, relative to the root. -/
def findProbeFile (visits : List Visit) : Option (List Name) :=
  visits.findSome? fun visit =>
    ((sortedNames visit.fileNames).find? (·.2)).map fun entry => visit.dir ++ [entry.1]

/-- `str(path)`. -/
def pathText (path : Path) : String :=
  String.ofList ('/' :: ['/'].intercalate path)

/-- The place a self-test asks at, for its reports. -/
def asked (urlPath : List Char) (connectHost : String) (port : ℕ) : String :=
  "self-test GET " ++ String.ofList urlPath ++ " against " ++ connectHost ++ ":" ++ toString port

/-- The part of `_run_self_test` for a root with a file. -/
def testFile (connectHost : String) (port : ℕ) (root : Path) (relParts : List Name) :
    Script (Except String String) := do
  let urlPath := selfTestTarget relParts
  match ← call (.readBytes (root ++ relParts)) with
  | .error (.osError text) => return .error ("self-test could not read probe file " ++
      pathText (root ++ relParts) ++ ": " ++ text)
  | .error raised => .fail (.uncaught raised)
  | .ok expected =>
      match ← call (.get connectHost port urlPath) with
      | .error (.other text) => .fail (.uncaught (.other text))
      | .error (.osError text) | .error (.httpException text) =>
          return .error (asked urlPath connectHost port ++ " failed: " ++ text)
      | .ok (status, body) =>
          if status ≠ 200 then
            return .error (asked urlPath connectHost port ++ " returned status " ++
              toString status ++ ", expected 200")
          else if body ≠ expected then
            return .error (asked urlPath connectHost port ++ " returned " ++
              toString body.length ++ " bytes, expected " ++ toString expected.length)
          else return .ok ("self-test verified " ++ toString body.length ++
            " real byte(s) served from " ++ String.ofList urlPath)

/-- The part of `_run_self_test` for a root without a file. -/
def testEmpty (connectHost : String) (port : ℕ) : Script (Except String String) := do
  let place := "self-test GET against " ++ connectHost ++ ":" ++ toString port ++ " (empty root)"
  match ← call (.get connectHost port selfTestEmptyRootProbePath) with
  | .error (.other text) => .fail (.uncaught (.other text))
  | .error (.osError text) | .error (.httpException text) =>
      return .error (place ++ " failed: " ++ text)
  | .ok (status, _) =>
      if status ≠ 404 then
        return .error (place ++ " returned status " ++ toString status ++ ", expected 404")
      else return .ok ("self-test confirmed the server responds (root has no file to verify " ++
        "byte-serving against)")

/-- `_run_self_test`. -/
def runSelfTest (config : Config) (port : ℕ) (root : Path) : Script (Except String String) := do
  let connectHost := selfTestConnectHost config.bindAddress
  match ← call (.walk root) with
  | .error raised => .fail (.uncaught raised)
  | .ok visits =>
      match findProbeFile visits with
      | some relParts => testFile connectHost port root relParts
      | none => testEmpty connectHost port

end SelfTest

section Main

variable (config : Config)

/-- The control loop, for a number of turns. -/
def controlLoop (deadline : ℤ) : ℕ → Script StopReason
  | 0 => .fail .running
  | fuel + 1 => do
      if ← call .stopFlag then return .signal
      else if deadline ≤ (← call .monotonic) then return .lifetimeExpired
      else
        call .sleep
        controlLoop deadline fuel

/-- The daemon once its self-test has passed. -/
def serve (fuel : ℕ) : Script Unit := do
  call (.persist .serve)
  let now ← call .monotonic
  let reason ← controlLoop (now + config.lifetimeSeconds * 1000) fuel
  match ← call .shutdown with
  | .error raised => .fail (.uncaught raised)
  | .ok () =>
      match ← call .serverClose with
      | .error raised => .fail (.uncaught raised)
      | .ok () =>
          call .joinThread
          call (.persist (.stop reason))

/-- The daemon once it is bound to a port. -/
def listen (fuel : ℕ) (root : Path) (port : ℕ) : Script Unit := do
  call (.persist (.bind port (formatBoundUrl config.bindAddress port)))
  match ← call .startThread with
  | .error raised => .fail (.uncaught raised)
  | .ok () =>
      match ← runSelfTest config port root with
      | .ok _ => serve config fuel
      | .error detail =>
          match ← call .serverClose with
          | .ok () | .error (.osError _) =>
              call (.persist (.fail (redact config.table detail []) .connection))
          | .error raised => .fail (.uncaught raised)

/-- `_run_daemon`. -/
def runDaemon (fuel : ℕ) : Script Unit := do
  call (.persist .claim)
  match ← call .resolveRoot with
  | .error (.osError text) =>
      call (.persist (.fail (redact config.table
        ("invalid root " ++ config.repr config.root ++ ": " ++ text) []) .protocol))
  | .error raised => .fail (.uncaught raised)
  | .ok root =>
      match ← call .bind with
      | .error (.osError text) =>
          call (.persist (.fail (redact config.table ("failed to bind " ++ config.bindAddress ++
            ":" ++ toString config.port ++ ": " ++ text) []) .connection))
      | .error raised => .fail (.uncaught raised)
      | .ok port => listen config fuel root port

end Main

end Daemon

end Asmb8Ikvm.HttpOrigin

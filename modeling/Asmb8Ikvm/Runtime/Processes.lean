import Asmb8Ikvm.Errors
import Asmb8Ikvm.Lib.Interaction
import Asmb8Ikvm.Runtime.SessionFiles

/-!
# State records and processes

The functions of `daemon_runtime.py` that a module calls on a session it finds in
`runtime_dir`: `read_state`, `is_pid_alive`, `request_stop`, `wait_for_state` and
`wait_for_exit`. They are programs over the calls of the operating system, in a
world with the files under `runtime_dir` and the processes of the host. A pid
names a process only as long as the process lives; what the process is, is its
identity.

A record holds the keys the modules look at. The clock is not modelled: a wait
takes the number of polls for which its deadline has not passed.
-/

namespace Asmb8Ikvm.Runtime

open Interaction

inductive Signal where
  | probe
  | sigterm
deriving DecidableEq, Repr

structure Process where
  identity : ℕ
  signalable : Bool
deriving DecidableEq, Repr

/-- What `os.kill` ends in. -/
inductive KillAnswer where
  | sent
  | processLookupError
  | permissionError
  | overflowError
deriving DecidableEq, Repr

/-- What a double fork of the daemon ends in. -/
inductive ForkAnswer where
  | unsupported
  | unreported
  | reported (pid : ℤ) (process : Process)
deriving DecidableEq, Repr

/-- The value of the key `pid`: missing or null, an integer, or a value `<=` does not take. -/
inductive PidField where
  | null
  | int (pid : ℤ)
  | other
deriving DecidableEq, Repr

/-- A record of a daemon with the states `S`. The session id is the text it is formatted as,
unless it is falsy; the other keys are missing when they have values of a type no daemon
writes. -/
structure StateRecord (S : Type) where
  sessionId : Option Name
  pid : PidField
  state : Option S
  endpoint : Option Name := none
  image : Option Name := none
  error : Option Name := none
  errorClass : Option ErrorClass := none
deriving DecidableEq, Repr

/-- What `read_state` makes of the content of a file. -/
inductive Loaded (S : Type) where
  | undecodable
  | noRecord
  | record (record : StateRecord S)
deriving DecidableEq, Repr

/-- `json.dumps` of a record, and what becomes of a content. -/
structure Codec (S : Type) where
  dumps : StateRecord S → Content
  loads : Content → Loaded S

/-- The world of a call. `author` is the identity of the daemon the record in a file belongs to;
no program can see it. `openPath` says of an image or a root why it is refused. -/
structure World where
  files : Directory
  processes : ℤ → Option Process
  author : Name → ℕ
  openPath : Name → Except String Unit
  forkAnswer : ForkAnswer

inductive Call where
  | listSessionIds
  | readFile (file : Name)
  | unlink (file : Name)
  | createFile (file : Name) (content : Content)
  | kill (pid : ℤ) (signal : Signal)
  | fork
  | openPath (path : Name)
deriving DecidableEq, Repr

abbrev Call.Answer : Call → Type
  | .listSessionIds => List Name
  | .readFile _ => Option Content
  | .unlink _ => Unit
  | .createFile _ _ => Unit
  | .kill _ _ => KillAnswer
  | .fork => ForkAnswer
  | .openPath _ => Except String Unit

/-- The pids from here on do not fit in the argument of `os.kill`. -/
def pidLimit : ℤ := 2 ^ 31

def World.kill (world : World) (pid : ℤ) : KillAnswer :=
  if pidLimit ≤ pid then .overflowError
  else
    match world.processes pid with
    | none => .processLookupError
    | some process => if process.signalable then .sent else .permissionError

/-- A file is created, unless it is there. -/
def World.create (world : World) (file : Name) (content : Content) : World :=
  match world.files.get? file with
  | none => { world with files := world.files.setLast file content }
  | some _ => world

/-- The process of the daemon, if the fork has made one. -/
def World.forked (world : World) : World :=
  match world.forkAnswer with
  | .reported pid process =>
      { world with processes := Function.update world.processes pid (some process) }
  | _ => world

/-- A call is answered and takes effect. What a signal does to the process that gets it, the
process does itself. -/
def perform : (call : Call) → World → call.Answer × World
  | .listSessionIds, world => (Runtime.listSessionIds world.files, world)
  | .readFile file, world => (world.files.get? file, world)
  | .unlink file, world => ((), { world with files := world.files.pop file })
  | .createFile file content, world => ((), world.create file content)
  | .kill pid _, world => (world.kill pid, world)
  | .fork, world => (world.forkAnswer, world.forked)
  | .openPath path, world => (world.openPath path, world)

/-- What a module can end in, other than a result. -/
inductive Failure (S : Type) where
  | failJson (errorClass : Option ErrorClass) (sessionId : Option Name)
      (observed : Option (StateRecord S)) (indeterminate : Bool)
  | raised (exn : Exn)
  | typeError
  | permissionError
  | unicodeDecodeError
deriving DecidableEq, Repr

/-- A program of a module. -/
abbrev Script (S α : Type) := Prog Call Call.Answer (Failure S) α

variable {S : Type}

def ids : Script S (List Name) :=
  Prog.ask Call.listSessionIds

def readFile (file : Name) : Script S (Option Content) :=
  Prog.ask (Call.readFile file)

def kill (pid : ℤ) (signal : Signal) : Script S KillAnswer :=
  Prog.ask (Call.kill pid signal)

def unlink (file : Name) : Script S Unit :=
  Prog.ask (Call.unlink file)

def createFile (file : Name) (content : Content) : Script S Unit :=
  Prog.ask (Call.createFile file content)

def fork : Script S ForkAnswer :=
  Prog.ask Call.fork

def openPath (path : Name) : Script S (Except String Unit) :=
  Prog.ask (Call.openPath path)

def readState (codec : Codec S) (sessionId : Name) : Script S (Option (StateRecord S)) := do
  match ← readFile (stateFilePath sessionId) with
  | none => pure none
  | some content =>
      match codec.loads content with
      | .undecodable => .fail .unicodeDecodeError
      | .noRecord => pure none
      | .record record => pure (some record)

def isPidAlive : PidField → Script S Bool
  | .null => pure false
  | .other => .fail .typeError
  | .int pid =>
      if pid ≤ 0 then pure false
      else do
        match ← kill pid .probe with
        | .sent => pure true
        | .processLookupError => pure false
        | .permissionError => pure true
        | .overflowError => .fail (.raised .overflowError)

def requestStop : PidField → Script S Unit
  | .null => pure ()
  | .other => .fail .typeError
  | .int pid =>
      if pid ≤ 0 then pure ()
      else do
        match ← kill pid .sigterm with
        | .sent => pure ()
        | .processLookupError => pure ()
        | .permissionError => .fail .permissionError
        | .overflowError => .fail (.raised .overflowError)

/-- Polls the record. The last look is the one at which the deadline has passed. -/
def waitForState (codec : Codec S) (sessionId : Name) (isDone : StateRecord S → Bool) :
    ℕ → Script S (Option (StateRecord S))
  | 0 => readState codec sessionId
  | polls + 1 => do
      let observed ← readState codec sessionId
      if observed.any isDone then pure observed
      else waitForState codec sessionId isDone polls

/-- Whether the process has exited before the deadline. -/
def waitForExit (pid : PidField) : ℕ → Script S Bool
  | 0 => do
      let alive ← isPidAlive pid
      pure !alive
  | polls + 1 => do
      if ← isPidAlive pid then waitForExit pid polls else pure true

def unlinkAll : List Name → Script S Unit
  | [] => pure ()
  | path :: paths => do
      unlink path
      unlinkAll paths

/-- `remove_state` of the module of this kind. -/
def removeRecord (kind : DaemonKind) (sessionId : Name) : Script S Unit :=
  unlinkAll
    [stateFilePath sessionId, logFilePath sessionId, requestLogPath kind sessionId]

/-- What `read_state` makes of a file, or of its absence. -/
def load (codec : Codec S) : Option Content → Loaded S
  | none => .noRecord
  | some content => codec.loads content

/-- What `read_state` finds in a world. -/
def loaded (codec : Codec S) (world : World) (sessionId : Name) : Loaded S :=
  load codec (world.files.get? (stateFilePath sessionId))

/-- What `read_state` ends in when it finds this. -/
def readOutcome : Loaded S → Except (Failure S) (Option (StateRecord S))
  | .undecodable => .error .unicodeDecodeError
  | .noRecord => .ok none
  | .record record => .ok (some record)

/-- What a probe says of the process. -/
def probeOutcome : KillAnswer → Except (Failure S) Bool
  | .sent => .ok true
  | .processLookupError => .ok false
  | .permissionError => .ok true
  | .overflowError => .error (.raised .overflowError)

/-- What `is_pid_alive` ends in, in a world. -/
def alive (world : World) : PidField → Except (Failure S) Bool
  | .null => .ok false
  | .other => .error .typeError
  | .int pid => if pid ≤ 0 then .ok false else probeOutcome (world.kill pid)

/-- What a signal to stop ends in. -/
def stopOutcome : KillAnswer → Except (Failure S) Unit
  | .sent => .ok ()
  | .processLookupError => .ok ()
  | .permissionError => .error .permissionError
  | .overflowError => .error (.raised .overflowError)

/-- `read_state` is one look at the file. -/
theorem readState_eq (codec : Codec S) (sessionId : Name) :
    readState codec sessionId = .call (.readFile (stateFilePath sessionId)) fun content =>
      .ofExcept (readOutcome (load codec content)) := by
  refine congrArg (Prog.call (Call.readFile (stateFilePath sessionId))) (funext fun content => ?_)
  rcases content with _ | content
  · rfl
  · change (match codec.loads content with
      | .undecodable => .fail .unicodeDecodeError
      | .noRecord => pure none
      | .record record => pure (some record) : Script S (Option (StateRecord S))) =
        .ofExcept (readOutcome (codec.loads content))
    cases codec.loads content <;> rfl

theorem isPidAlive_of_nonpos {pid : ℤ} (nonpos : pid ≤ 0) :
    (isPidAlive (.int pid) : Script S Bool) = .done false := by
  simp only [isPidAlive, if_pos nonpos, Prog.pure_eq]

/-- `is_pid_alive` of a pid is one probe. -/
theorem isPidAlive_of_pos {pid : ℤ} (positive : ¬ pid ≤ 0) :
    (isPidAlive (.int pid) : Script S Bool) = .call (.kill pid .probe) fun answer =>
      .ofExcept (probeOutcome answer) := by
  simp only [isPidAlive, if_neg positive]
  refine congrArg (Prog.call (Call.kill pid .probe)) (funext fun answer => ?_)
  cases answer <;> rfl

theorem requestStop_of_nonpos {pid : ℤ} (nonpos : pid ≤ 0) :
    (requestStop (.int pid) : Script S Unit) = .done () := by
  simp only [requestStop, if_pos nonpos, Prog.pure_eq]

theorem requestStop_of_pos {pid : ℤ} (positive : ¬ pid ≤ 0) :
    (requestStop (.int pid) : Script S Unit) = .call (.kill pid .sigterm) fun answer =>
      .ofExcept (stopOutcome answer) := by
  simp only [requestStop, if_neg positive]
  refine congrArg (Prog.call (Call.kill pid .sigterm)) (funext fun answer => ?_)
  cases answer <;> rfl

theorem exec_readState (codec : Codec S) (world : World) (sessionId : Name) :
    exec perform (readState codec sessionId) world =
      ([⟨.readFile (stateFilePath sessionId), world⟩],
        readOutcome (loaded codec world sessionId), world) := by
  rw [readState_eq, exec_call_ofExcept]
  rfl

theorem ensures_readState {allowed : World → Prop} (codec : Codec S) (sessionId : Name)
    {Post : List (Moment Call World) → Except (Failure S) (Option (StateRecord S)) → Prop}
    (looks : ∀ world, allowed world → Post [⟨.readFile (stateFilePath sessionId), world⟩]
      (readOutcome (loaded codec world sessionId))) :
    Ensures perform allowed (readState codec sessionId) Post := by
  rw [readState_eq]
  exact ensures_call_ofExcept looks

/-- The one moment of a look at the record, and what it gives. -/
theorem look_readState {allowed : World → Prop} (codec : Codec S) (sessionId : Name) :
    Ensures perform allowed (readState codec sessionId) fun trace outcome =>
      ∃ world, trace = [⟨.readFile (stateFilePath sessionId), world⟩] ∧
        outcome = readOutcome (loaded codec world sessionId) :=
  ensures_readState codec sessionId fun world _ => ⟨world, rfl, rfl⟩

theorem runs_readState {others : World → World → Prop} {codec : Codec S} {sessionId : Name}
    {world final : World} {trace : List (Moment Call World)}
    {outcome : Except (Failure S) (Option (StateRecord S))}
    (run : Runs perform others (readState codec sessionId) world trace outcome final) :
    others world final ∧ trace = [⟨.readFile (stateFilePath sessionId), final⟩] ∧
      outcome = readOutcome (loaded codec final sessionId) := by
  rw [readState_eq] at run
  rcases run.of_call_ofExcept with ⟨moved, move, isTrace, isOutcome, rfl⟩
  exact ⟨move, isTrace, isOutcome⟩

theorem exec_isPidAlive (world : World) (pid : PidField) :
    (exec perform (isPidAlive pid : Script S Bool) world).2 = (alive world pid, world) := by
  cases pid with
  | null => rfl
  | other => rfl
  | int pid =>
      by_cases positive : pid ≤ 0
      · rw [isPidAlive_of_nonpos positive, alive, if_pos positive]
        rfl
      · rw [isPidAlive_of_pos positive, exec_call_ofExcept, alive, if_neg positive]
        rfl

theorem loaded_of_readOutcome {found : Loaded S} {record : StateRecord S}
    (outcome : readOutcome found = .ok (some record)) : found = .record record := by
  cases found with
  | undecodable => cases outcome
  | noRecord => cases outcome
  | record other =>
      cases outcome
      rfl

theorem undecodable_of_readOutcome {found : Loaded S} {failure : Failure S}
    (outcome : readOutcome found = .error failure) : found = .undecodable := by
  cases found with
  | undecodable => rfl
  | noRecord => cases outcome
  | record other => cases outcome

theorem noRecord_of_readOutcome {found : Loaded S} (outcome : readOutcome found = .ok none) :
    found = .noRecord := by
  cases found with
  | undecodable => cases outcome
  | noRecord => rfl
  | record record => cases outcome

end Asmb8Ikvm.Runtime

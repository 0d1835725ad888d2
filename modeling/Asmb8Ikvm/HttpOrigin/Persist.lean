import Asmb8Ikvm.Errors
import Asmb8Ikvm.Lib.Schedule
import Asmb8Ikvm.Runtime.StateFile

/-!
# The record of the HTTP origin

`_run_daemon` of `http_origin.py` as far as it writes the record: the main thread
persists the lifecycle of the server, and every request that has been handled is
counted and persisted by its handler thread. All threads share the dictionary and
the temporary file. A handler holds the lock while it persists; the main thread
does not take it.

A record is torn when a thread opens the temporary file while another one has it
open, and it goes backwards when a thread renames a snapshot after a later one has
been renamed. When neither happens, the record only moves forward.
-/

namespace Asmb8Ikvm.HttpOrigin

open Asmb8Ikvm.Runtime

universe u

/-- The values of the key `state`. -/
inductive SessionState where
  | starting
  | serving
  | stopped
  | error
deriving DecidableEq, Repr

/-- The place of a state in the life of a server. -/
def SessionState.rank : SessionState → ℕ
  | .starting => 0
  | .serving | .error => 1
  | .stopped => 2

/-- The values of the key `stop_reason`. -/
inductive StopReason where
  | signal
  | lifetimeExpired
deriving DecidableEq, Repr

/-- The record of a session. -/
structure Record where
  sessionId : String
  pid : ℤ
  state : SessionState := .starting
  error : Option String := none
  errorClass : Option ErrorClass := none
  root : String
  bindAddress : String
  port : ℕ
  url : Option String := none
  requestCount : ℕ := 0
  bytesServed : ℕ := 0
  lastRequestAt : Option String := none
  startedAt : String
  updatedAt : String
  stopReason : Option StopReason := none
deriving DecidableEq, Repr

def initialState (sessionId : String) (pid : ℤ) (root bindAddress : String) (port : ℕ)
    (now : String) : Record where
  sessionId
  pid
  root
  bindAddress
  port
  startedAt := now
  updatedAt := now

/-- The first record may come before the second one. -/
structure Record.AtMost (earlier later : Record) : Prop where
  state : earlier.state.rank ≤ later.state.rank
  requestCount : earlier.requestCount ≤ later.requestCount

theorem Record.AtMost.refl (record : Record) : record.AtMost record :=
  ⟨le_refl _, le_refl _⟩

theorem Record.AtMost.trans {first second third : Record} (before : first.AtMost second)
    (after : second.AtMost third) : first.AtMost third :=
  ⟨before.state.trans after.state, before.requestCount.trans after.requestCount⟩

/-- What the main thread does before it persists. -/
inductive Advance where
  | claim
  | fail (error : String) (errorClass : ErrorClass)
  | bind (port : ℕ) (url : String)
  | serve
  | stop (reason : StopReason)
deriving DecidableEq, Repr

def Advance.apply (advance : Advance) (state : Record) : Record :=
  match advance with
  | .claim => state
  | .fail error errorClass =>
      { state with state := .error, error := some error, errorClass := some errorClass }
  | .bind port url => { state with port, url := some url }
  | .serve => { state with state := .serving }
  | .stop reason => { state with state := .stopped, stopReason := some reason }

/-- How far the main thread has come. -/
inductive Stage where
  | start
  | claimed
  | bound
  | serving
  | over
deriving DecidableEq, Repr

/-- The order in which the main thread persists. -/
def Stage.next : Stage → Advance → Option Stage
  | .start, .claim => some .claimed
  | .claimed, .fail _ _ => some .over
  | .claimed, .bind _ _ => some .bound
  | .bound, .fail _ _ => some .over
  | .bound, .serve => some .serving
  | .serving, .stop _ => some .over
  | _, _ => none

/-- The threads of the daemon: the main thread and its handlers. -/
inductive Thread (ι : Type u) where
  | main
  | handler (id : ι)
deriving DecidableEq, Repr

/-- Where a thread stands in `_persist`. A snapshot is known by its place among all
snapshots. -/
inductive Phase where
  | idle
  | updated
  | taken (stamp : ℕ) (record : Record)
  | writing (inode stamp : ℕ) (record : Record) (sent rest : List Char)
deriving DecidableEq, Repr

/-- The thread has the temporary file open. -/
def Phase.isWriting : Phase → Bool
  | .writing _ _ _ _ _ => true
  | _ => false

/-- The snapshot of a thread that has taken one. -/
def Phase.snapshot : Phase → Option (ℕ × Record)
  | .taken stamp record | .writing _ stamp record _ _ => some (stamp, record)
  | _ => none

/-- The daemon: its files, the dictionary, the threads and the lock. Next to it the snapshots in
the order they were taken, the last one that was renamed, and every text that a reader could
have found. -/
structure Server (ι : Type u) where
  fs : FileSystem StateName Char
  state : Record
  stage : Stage := .start
  listening : Bool := false
  lock : Option ι := none
  phase : Thread ι → Phase := fun _ => .idle
  snapshots : List Record := []
  newest : Option ℕ := none
  shown : List (List Char) := []

/-- The steps of the threads. -/
inductive Action (ι : Type u) where
  | advance (advance : Advance)
  | count (id : ι) (bytesSent : ℕ) (now : String)
  | snapshot (thread : Thread ι) (now : String)
  | openTemp (thread : Thread ι)
  | write (thread : Thread ι) (n : ℕ)
  | replace (thread : Thread ι)
deriving DecidableEq, Repr

namespace Server

variable {ι : Type u}

/-- A reader may look at the record after every step. -/
def observe (s : Server ι) : Server ι :=
  { s with shown := s.shown ++ (s.fs.read .record).toList }

section Moves

variable [DecidableEq ι]

/-- A thread goes to another phase. -/
def goto (thread : Thread ι) (phase : Phase) (s : Server ι) : Server ι :=
  { s with phase := Function.update s.phase thread phase }

/-- A thread has persisted: a handler lets the lock go, and the main thread starts the server
once it has persisted its address. -/
def persisted (thread : Thread ι) (s : Server ι) : Server ι :=
  match thread with
  | .main => { s.goto .main .idle with listening := s.listening || s.stage == .bound }
  | .handler _ => { s.goto thread .idle with lock := none }

/-- One step of a thread; a step out of its turn is not enabled. -/
def move (format : Format Record) : Action ι → Server ι → Option (Server ι)
  | .advance advance, s =>
      match s.phase .main, s.stage.next advance with
      | .idle, some stage =>
          some ({ s with stage, state := advance.apply s.state }.goto .main .updated)
      | _, _ => none
  | .count id bytesSent now, s =>
      if s.listening ∧ s.lock = none ∧ s.phase (.handler id) = .idle then
        let state := { s.state with
          requestCount := s.state.requestCount + 1
          bytesServed := s.state.bytesServed + bytesSent
          lastRequestAt := some now }
        some ({ s with state, lock := some id }.goto (.handler id) .updated)
      else none
  | .snapshot thread now, s =>
      match s.phase thread with
      | .updated =>
          let state := { s.state with updatedAt := now }
          some ({ s with state, snapshots := s.snapshots ++ [state] }.goto thread
            (.taken s.snapshots.length state))
      | _ => none
  | .openTemp thread, s =>
      match s.phase thread with
      | .taken stamp record =>
          let (i, fs) := s.fs.openTruncate .temp
          some ({ s with fs }.goto thread (.writing i stamp record [] (format.dumps record)))
      | _ => none
  | .write thread n, s =>
      match s.phase thread with
      | .writing i stamp record sent rest =>
          some ({ s with fs := s.fs.write i sent.length (rest.take n) }.goto thread
            (.writing i stamp record (sent ++ rest.take n) (rest.drop n)))
      | _ => none
  | .replace thread, s =>
      match s.phase thread with
      | .writing _ stamp _ _ [] =>
          match s.fs.rename .temp .record with
          | none => some (s.persisted thread)
          | some fs => some ({ s with fs, newest := some stamp }.persisted thread)
      | _ => none

def step (format : Format Record) (action : Action ι) (s : Server ι) : Option (Server ι) :=
  (move format action s).map observe

end Moves

/-- The record of a server that serves or has stopped. -/
def Settled (record : Record) : Prop :=
  record.state = .serving ∨ record.state = .stopped

/-- Every text that could be read is a complete snapshot, and once a settled record has been
visible, no earlier record is visible again. -/
structure Steady (format : Format Record) (s : Server ι) : Prop where
  complete : ∀ text ∈ s.shown, ∃ record ∈ s.snapshots, format.loads text = some record
  forward : s.shown.Pairwise fun earlier later => ∀ before after,
    format.loads earlier = some before → format.loads later = some after → Settled before →
      before.AtMost after

/-- No other thread has the temporary file open when a thread opens it, and no later snapshot
has been renamed when a thread renames its own. -/
def Orderly (_ : List (Action ι)) (action : Action ι) (s : Server ι) : Prop :=
  match action with
  | .openTemp thread => ∀ other ≠ thread, (s.phase other).isWriting = false
  | .replace thread => ∀ stamp record newest, (s.phase thread).snapshot = some (stamp, record) →
      s.newest = some newest → newest ≤ stamp
  | _ => True

/-- What is true of a thread in its phase. -/
def PhaseOk (format : Format Record) (s : Server ι) : Phase → Prop
  | .idle | .updated => True
  | .taken stamp record => s.snapshots[stamp]? = some record
  | .writing i stamp record sent rest =>
      s.snapshots[stamp]? = some record ∧ s.fs.inode .temp = some i ∧ s.fs.content i = sent ∧
        sent ++ rest = format.dumps record

/-- The state that goes with a stage. -/
def StageOk (s : Server ι) : Prop :=
  match s.stage with
  | .start | .claimed | .bound => s.state.state = .starting
  | .serving => s.state.state = .serving
  | .over => True

/-- The texts that have been visible are snapshots, in the order they were taken. -/
structure Shown (format : Format Record) (s : Server ι) : Prop where
  texts : ∀ text ∈ s.shown, ∃ stamp newest record, s.newest = some newest ∧ stamp ≤ newest ∧
    s.snapshots[stamp]? = some record ∧ text = format.dumps record
  inOrder : s.shown.Pairwise fun earlier later => ∃ before ∈ s.snapshots, ∃ after ∈ s.snapshots,
    earlier = format.dumps before ∧ later = format.dumps after ∧ before.AtMost after

/-- The invariant of an orderly run. -/
structure Ordered (format : Format Record) (s : Server ι) : Prop where
  wellFormed : s.fs.WellFormed
  snapshots : s.snapshots.Pairwise Record.AtMost
  state : ∀ record ∈ s.snapshots, record.AtMost s.state
  stage : StageOk s
  phases : ∀ thread, PhaseOk format s (s.phase thread)
  alone : ∀ thread other, (s.phase thread).isWriting = true →
    (s.phase other).isWriting = true → thread = other
  apart : ∀ i, s.fs.inode .temp = some i → s.fs.inode .record ≠ some i
  visible : ∀ i, s.fs.inode .record = some i → ∃ stamp record, s.newest = some stamp ∧
    s.snapshots[stamp]? = some record ∧ s.fs.content i = format.dumps record
  shown : Shown format s

theorem steady_of_ordered {format : Format Record} {s : Server ι} (ordered : Ordered format s)
    (lawful : ∀ record ∈ s.snapshots, format.loads (format.dumps record) = some record) :
    Steady format s := by
  constructor
  · intro text isShown
    rcases ordered.shown.texts text isShown with ⟨stamp, _, record, -, -, found, rfl⟩
    have mem := List.mem_of_getElem? found
    exact ⟨record, mem, lawful record mem⟩
  · refine ordered.shown.inOrder.imp ?_
    rintro earlier later ⟨before, beforeMem, after, afterMem, rfl, rfl, atMost⟩ first second
      isFirst isSecond -
    rw [lawful before beforeMem] at isFirst
    rw [lawful after afterMem] at isSecond
    cases isFirst
    cases isSecond
    exact atMost

namespace Ordered

variable {format : Format Record} {s : Server ι}

/-- Snapshots of one run can be compared by their place. -/
theorem atMost (ordered : Ordered format s) {first second : ℕ} {earlier later : Record}
    (inOrder : first ≤ second) (isEarlier : s.snapshots[first]? = some earlier)
    (isLater : s.snapshots[second]? = some later) : earlier.AtMost later := by
  rcases List.getElem?_eq_some_iff.mp isEarlier with ⟨firstBelow, rfl⟩
  rcases List.getElem?_eq_some_iff.mp isLater with ⟨secondBelow, rfl⟩
  rcases inOrder.lt_or_eq with before | rfl
  · exact List.pairwise_iff_getElem.mp ordered.snapshots first second firstBelow secondBelow before
  · exact .refl _

/-- A look at the record adds a snapshot that is not older than those before. -/
theorem observe (ordered : Ordered format s) : Ordered format s.observe := by
  refine ⟨ordered.wellFormed, ordered.snapshots, ordered.state, ordered.stage, ordered.phases,
    ordered.alone, ordered.apart, ordered.visible, ?_⟩
  rw [Server.observe]
  cases bound : s.fs.inode .record with
  | none =>
      simp only [FileSystem.read, bound, Option.map_none, Option.toList_none, List.append_nil]
      exact ordered.shown
  | some i =>
      rcases ordered.visible i bound with ⟨newest, record, isNewest, found, content⟩
      simp only [FileSystem.read, bound, Option.map_some, Option.toList_some, content]
      refine ⟨?_, List.pairwise_append.mpr ⟨ordered.shown.inOrder, List.pairwise_singleton _ _,
        ?_⟩⟩
      · intro text mem
        rcases List.mem_append.mp mem with earlier | last
        · exact ordered.shown.texts text earlier
        · exact ⟨newest, newest, record, isNewest, le_refl _, found, List.mem_singleton.mp last⟩
      · intro earlier isShown later isLater
        rw [List.mem_singleton.mp isLater]
        rcases ordered.shown.texts earlier isShown with
          ⟨stamp, bound, before, isBound, below, beforeFound, rfl⟩
        rw [isNewest] at isBound
        cases isBound
        exact ⟨before, List.mem_of_getElem? beforeFound, record, List.mem_of_getElem? found, rfl,
          rfl, ordered.atMost below beforeFound found⟩

/-- The dictionary moves forward, and the main thread with it. -/
theorem withState (ordered : Ordered format s) (state : Record) (stage : Stage)
    (listening : Bool) (lock : Option ι) (forward : s.state.AtMost state)
    (stageOk : StageOk { s with state, stage }) :
    Ordered format { s with state, stage, listening, lock } :=
  ⟨ordered.wellFormed, ordered.snapshots,
    fun record mem => (ordered.state record mem).trans forward,
    stageOk, ordered.phases, ordered.alone, ordered.apart, ordered.visible,
    ⟨ordered.shown.texts, ordered.shown.inOrder⟩⟩

theorem goto [DecidableEq ι] (ordered : Ordered format s) (thread : Thread ι) (phase : Phase)
    (phaseOk : PhaseOk format s phase)
    (alone : phase.isWriting = true → ∀ other ≠ thread, (s.phase other).isWriting = false) :
    Ordered format (s.goto thread phase) := by
  refine ⟨ordered.wellFormed, ordered.snapshots, ordered.state, ordered.stage, ?_, ?_,
    ordered.apart, ordered.visible, ⟨ordered.shown.texts, ordered.shown.inOrder⟩⟩
  · intro other
    simp only [Server.goto]
    by_cases same : other = thread
    · subst same
      rw [Function.update_self]
      exact phaseOk
    · rw [Function.update_of_ne same]
      exact ordered.phases other
  · intro first second firstWrites secondWrites
    simp only [Server.goto] at firstWrites secondWrites
    by_cases isFirst : first = thread
    · by_cases isSecond : second = thread
      · rw [isFirst, isSecond]
      · subst isFirst
        rw [Function.update_self] at firstWrites
        rw [Function.update_of_ne isSecond, alone firstWrites second isSecond] at secondWrites
        cases secondWrites
    · rw [Function.update_of_ne isFirst] at firstWrites
      by_cases isSecond : second = thread
      · subst isSecond
        rw [Function.update_self] at secondWrites
        rw [alone secondWrites first isFirst] at firstWrites
        cases firstWrites
      · rw [Function.update_of_ne isSecond] at secondWrites
        exact ordered.alone first second firstWrites secondWrites

/-- A snapshot is the last one. -/
theorem withSnapshot (ordered : Ordered format s) (now : String) :
    Ordered format { s with
      state := { s.state with updatedAt := now }
      snapshots := s.snapshots ++ [{ s.state with updatedAt := now }] } := by
  have same : s.state.AtMost { s.state with updatedAt := now } := ⟨le_refl _, le_refl _⟩
  have found {stamp : ℕ} {record : Record} (isSnapshot : s.snapshots[stamp]? = some record) :
      (s.snapshots ++ [{ s.state with updatedAt := now }])[stamp]? = some record := by
    rw [List.getElem?_append_left (List.getElem?_eq_some_iff.mp isSnapshot).1]
    exact isSnapshot
  refine ⟨ordered.wellFormed, ?_, ?_, ordered.stage, ?_, ordered.alone, ordered.apart, ?_, ?_⟩
  · refine List.pairwise_append.mpr ⟨ordered.snapshots, List.pairwise_singleton _ _, ?_⟩
    intro record mem last isLast
    rw [List.mem_singleton.mp isLast]
    exact (ordered.state record mem).trans same
  · intro record mem
    rcases List.mem_append.mp mem with earlier | last
    · exact (ordered.state record earlier).trans same
    · rw [List.mem_singleton.mp last]
      exact .refl _
  · intro thread
    have phaseOk := ordered.phases thread
    cases phase : s.phase thread with
    | idle => trivial
    | updated => trivial
    | taken stamp record =>
        rw [phase] at phaseOk
        exact found phaseOk
    | writing i stamp record sent rest =>
        rw [phase] at phaseOk
        exact ⟨found phaseOk.1, phaseOk.2⟩
  · intro i bound
    rcases ordered.visible i bound with ⟨stamp, record, isNewest, isSnapshot, content⟩
    exact ⟨stamp, record, isNewest, found isSnapshot, content⟩
  · constructor
    · intro text mem
      rcases ordered.shown.texts text mem with
        ⟨stamp, newest, record, isNewest, below, isSnapshot, isText⟩
      exact ⟨stamp, newest, record, isNewest, below, found isSnapshot, isText⟩
    · refine ordered.shown.inOrder.imp ?_
      rintro earlier later ⟨before, beforeMem, after, afterMem, texts⟩
      exact ⟨before, List.mem_append_left _ beforeMem, after, List.mem_append_left _ afterMem,
        texts⟩

/-- The files change while nobody has the temporary file open; the record keeps its content. -/
theorem withFiles (ordered : Ordered format s)
    (nobody : ∀ thread, (s.phase thread).isWriting = false) (fs : FileSystem StateName Char)
    (wellFormed : fs.WellFormed)
    (apart : ∀ i, fs.inode .temp = some i → fs.inode .record ≠ some i)
    (record : fs.inode .record = s.fs.inode .record)
    (content : ∀ i, s.fs.inode .record = some i → fs.content i = s.fs.content i) :
    Ordered format { s with fs } := by
  refine ⟨wellFormed, ordered.snapshots, ordered.state, ordered.stage, ?_, ordered.alone, apart, ?_,
    ⟨ordered.shown.texts, ordered.shown.inOrder⟩⟩
  · intro thread
    have phaseOk := ordered.phases thread
    have quiet := nobody thread
    cases phase : s.phase thread with
    | idle => trivial
    | updated => trivial
    | taken stamp snapshot =>
        rw [phase] at phaseOk
        exact phaseOk
    | writing i stamp snapshot sent rest =>
        rw [phase] at quiet
        cases quiet
  · intro i bound
    dsimp only at bound
    rw [record] at bound
    rcases ordered.visible i bound with ⟨stamp, snapshot, isNewest, isSnapshot, isContent⟩
    exact ⟨stamp, snapshot, isNewest, isSnapshot, (content i bound).trans isContent⟩

/-- A complete snapshot becomes the record, while nobody has the temporary file open. -/
theorem withRecord (ordered : Ordered format s)
    (nobody : ∀ thread, (s.phase thread).isWriting = false) {i stamp : ℕ} {record : Record}
    (isTemp : s.fs.inode .temp = some i) (isSnapshot : s.snapshots[stamp]? = some record)
    (content : s.fs.content i = format.dumps record)
    (newer : ∀ newest, s.newest = some newest → newest ≤ stamp)
    {fs : FileSystem StateName Char} (renamed : s.fs.rename .temp .record = some fs) :
    Ordered format { s with fs, newest := some stamp } := by
  have wellFormed := ordered.wellFormed.rename renamed
  rcases FileSystem.rename_eq_some renamed with ⟨j, isSource, rfl⟩
  rw [isTemp] at isSource
  cases isSource
  refine ⟨wellFormed, ordered.snapshots, ordered.state, ordered.stage, ?_, ordered.alone, ?_, ?_,
    ?_, ordered.shown.inOrder⟩
  · intro thread
    have phaseOk := ordered.phases thread
    have quiet := nobody thread
    cases phase : s.phase thread with
    | idle => trivial
    | updated => trivial
    | taken stamp snapshot =>
        rw [phase] at phaseOk
        exact phaseOk
    | writing i stamp snapshot sent rest =>
        rw [phase] at quiet
        cases quiet
  · intro k bound
    cases bound
  · intro k bound
    cases bound
    exact ⟨stamp, record, rfl, isSnapshot, content⟩
  · intro text mem
    rcases ordered.shown.texts text mem with
      ⟨other, newest, snapshot, isNewest, below, isOther, isText⟩
    exact ⟨other, stamp, snapshot, rfl, below.trans (newer newest isNewest), isOther, isText⟩

section Moves

variable [DecidableEq ι] {later : Server ι}

theorem persisted (ordered : Ordered format s) (thread : Thread ι) :
    Ordered format (s.persisted thread) := by
  have idle := ordered.goto thread .idle trivial nofun
  cases thread with
  | main => exact idle.withState _ _ _ _ (.refl _) idle.stage
  | handler id => exact idle.withState _ _ _ _ (.refl _) idle.stage

/-- While a thread has the temporary file open, no other one does. -/
theorem nobodyElse (ordered : Ordered format s) {thread : Thread ι}
    (writing : (s.phase thread).isWriting = true) (other : Thread ι) :
    ((s.goto thread .idle).phase other).isWriting = false := by
  simp only [Server.goto]
  by_cases same : other = thread
  · subst same
    rw [Function.update_self]
    rfl
  · rw [Function.update_of_ne same]
    cases otherWrites : (s.phase other).isWriting with
    | false => rfl
    | true => exact absurd (ordered.alone _ _ otherWrites writing) same

theorem advance (ordered : Ordered format s) {advance : Advance}
    (moves : move format (.advance advance) s = some later) : Ordered format later := by
  simp only [move] at moves
  split at moves
  next stage idle next =>
    cases moves
    have stageOk := ordered.stage
    have forward : s.state.AtMost (advance.apply s.state) ∧
        StageOk { s with stage, state := advance.apply s.state } := by
      unfold StageOk at stageOk
      cases isStage : s.stage <;> rw [isStage] at next stageOk <;> cases advance <;> cases next
      all_goals exact ⟨⟨by simp [Advance.apply, SessionState.rank, stageOk], le_refl _⟩,
        by simp_all [StageOk, Advance.apply]⟩
    exact (ordered.withState _ _ s.listening s.lock forward.1 forward.2).goto .main .updated
      trivial nofun
  next => cases moves

theorem count (ordered : Ordered format s) {id : ι} {bytesSent : ℕ} {now : String}
    (moves : move format (.count id bytesSent now) s = some later) : Ordered format later := by
  simp only [move] at moves
  split_ifs at moves
  cases moves
  have counted := ordered.withState
    { s.state with
      requestCount := s.state.requestCount + 1
      bytesServed := s.state.bytesServed + bytesSent
      lastRequestAt := some now }
    s.stage s.listening (some id) ⟨le_refl _, Nat.le_succ _⟩ ordered.stage
  exact counted.goto (.handler id) .updated trivial nofun

theorem snapshot (ordered : Ordered format s) {thread : Thread ι} {now : String}
    (moves : move format (.snapshot thread now) s = some later) : Ordered format later := by
  simp only [move] at moves
  split at moves
  next =>
    cases moves
    refine (ordered.withSnapshot now).goto thread _ ?_ nofun
    exact List.getElem?_concat_length ..
  next => cases moves

theorem openTemp (ordered : Ordered format s) {thread : Thread ι}
    (orderly : ∀ other ≠ thread, (s.phase other).isWriting = false)
    (moves : move format (.openTemp thread) s = some later) : Ordered format later := by
  simp only [move] at moves
  split at moves
  next stamp record taken =>
    cases moves
    have nobody : ∀ other, (s.phase other).isWriting = false := by
      intro other
      by_cases same : other = thread
      · rw [same, taken]
        rfl
      · exact orderly other same
    have opened := s.fs.openTruncate_opened .temp
    have different : ∀ j, s.fs.inode .record = some j → j ≠ (s.fs.openTruncate .temp).1 := by
      rintro j isRecord rfl
      rcases opened.fresh with before | beyond
      · exact ordered.apart _ before isRecord
      · exact absurd (ordered.wellFormed _ _ isRecord) (not_lt.mpr beyond)
    have recordStays := opened.others .record (by decide)
    have found := ordered.phases thread
    rw [taken] at found
    have files := ordered.withFiles nobody _ (ordered.wellFormed.openTruncate .temp) (by
      intro i isTemp isRecord
      rw [recordStays] at isRecord
      rw [opened.inode] at isTemp
      cases isTemp
      exact different _ isRecord rfl) recordStays
      fun j isRecord => opened.contents j (ordered.wellFormed _ _ isRecord) (different j isRecord)
    exact files.goto thread _ ⟨found, opened.inode, opened.content, rfl⟩ fun _ => orderly
  next => cases moves

theorem write (ordered : Ordered format s) {thread : Thread ι} {n : ℕ}
    (moves : move format (.write thread n) s = some later) : Ordered format later := by
  simp only [move] at moves
  split at moves
  next i stamp record sent rest writing =>
    cases moves
    have phaseOk := ordered.phases thread
    rw [writing] at phaseOk
    rcases phaseOk with ⟨found, isTemp, content, text⟩
    have isWriting : (s.phase thread).isWriting = true := by
      rw [writing]
      rfl
    have idle := ordered.goto thread .idle trivial nofun
    have files := idle.withFiles (ordered.nobodyElse isWriting)
      (s.fs.write i sent.length (rest.take n)) ordered.wellFormed ordered.apart rfl (by
        intro j isRecord
        refine FileSystem.content_write_of_ne ?_ ..
        rintro rfl
        exact ordered.apart _ isTemp isRecord)
    have appended := FileSystem.content_write_end content (rest.take n)
    have again := files.goto thread
      (.writing i stamp record (sent ++ rest.take n) (rest.drop n))
      ⟨found, isTemp, appended, by rw [List.append_assoc, List.take_append_drop, text]⟩
      fun _ other _ => ordered.nobodyElse isWriting other
    simpa only [Server.goto, Function.update_idem] using again
  next => cases moves

theorem replace (ordered : Ordered format s) {thread : Thread ι}
    (orderly : ∀ stamp record newest, (s.phase thread).snapshot = some (stamp, record) →
      s.newest = some newest → newest ≤ stamp)
    (moves : move format (.replace thread) s = some later) : Ordered format later := by
  simp only [move] at moves
  split at moves
  next i stamp record sent writing =>
    have phaseOk := ordered.phases thread
    rw [writing] at phaseOk
    rcases phaseOk with ⟨found, isTemp, content, text⟩
    rw [List.append_nil] at text
    split at moves
    next missing =>
      cases moves
      exact ordered.persisted thread
    next fs renamed =>
      cases moves
      have isWriting : (s.phase thread).isWriting = true := by
        rw [writing]
        rfl
      have idle := ordered.goto thread .idle trivial nofun
      have replaced := (idle.withRecord (ordered.nobodyElse isWriting) isTemp found
        (content.trans text) (fun newest isNewest => orderly stamp record newest
          (by rw [writing]; rfl) isNewest) renamed).persisted thread
      cases thread with
      | main => simpa only [Server.persisted, Server.goto, Function.update_idem] using replaced
      | handler id =>
          simpa only [Server.persisted, Server.goto, Function.update_idem] using replaced
  next => cases moves

end Moves

end Ordered

section Runs

variable [DecidableEq ι] {format : Format Record}

theorem step_ordered {s later : Server ι} (ordered : Ordered format s)
    {history : List (Action ι)} {action : Action ι} (orderly : Orderly history action s)
    (moves : step format action s = some later) : Ordered format later := by
  rcases Option.map_eq_some_iff.mp moves with ⟨moved, isMove, rfl⟩
  refine Ordered.observe ?_
  cases action with
  | advance advance => exact ordered.advance isMove
  | count id bytesSent now => exact ordered.count isMove
  | snapshot thread now => exact ordered.snapshot isMove
  | openTemp thread => exact ordered.openTemp orderly isMove
  | write thread n => exact ordered.write isMove
  | replace thread => exact ordered.replace orderly isMove

omit [DecidableEq ι] in
/-- The daemon before its first record. -/
theorem start_ordered {fs : FileSystem StateName Char} (wellFormed : fs.WellFormed)
    (absent : fs.inode .record = none) {state : Record} (starting : state.state = .starting) :
    Ordered format ({ fs, state } : Server ι) := by
  refine ⟨wellFormed, .nil, by simp, starting, fun _ => trivial, ?_, ?_, ?_, ⟨by simp, .nil⟩⟩
  · intro thread other writes _
    cases writes
  · intro i _ isRecord
    rw [absent] at isRecord
    cases isRecord
  · intro i isRecord
    dsimp only at isRecord
    rw [absent] at isRecord
    cases isRecord

/-- In every run in which no thread opens the temporary file while another one has it open, and
none renames a snapshot after a later one, the record is always complete and does not go
backwards. -/
theorem steady_of_orderly {fs : FileSystem StateName Char} (wellFormed : fs.WellFormed)
    (absent : fs.inode .record = none) (sessionId : String) (pid : ℤ)
    (root bindAddress : String) (port : ℕ) (now : String)
    {history : List (Action ι)} {s : Server ι}
    (run : Schedule.Run (step format) Orderly
      { fs, state := initialState sessionId pid root bindAddress port now } history s)
    (lawful : ∀ record ∈ s.snapshots, format.loads (format.dumps record) = some record) :
    Steady format s := by
  have ordered : Ordered format s := by
    refine @Schedule.Run.invariant _ _ _ _ _ _ _ (fun _ s => Ordered format s)
      (start_ordered wellFormed absent rfl) ?_ run
    intro _ _ _ _ inv orderly moves
    exact step_ordered inv orderly moves
  exact steady_of_ordered ordered lawful

end Runs

end Server

/-- The record of a server for `/srv` that has been given the time `now`. -/
def sampleRecord (state : SessionState) (requestCount : ℕ) (now : String) : Record where
  sessionId := "a"
  pid := 7
  state
  root := "/srv"
  bindAddress := "127.0.0.1"
  port := 8000
  url := if now = "t1" then none else some "http://127.0.0.1:8000/"
  requestCount
  bytesServed := 10 * requestCount
  lastRequestAt := if requestCount = 0 then none else some "t4"
  startedAt := "t0"
  updatedAt := now
  stopReason := if state = .stopped then some .signal else none

def jsonString (text : String) : List Char :=
  '"' :: text.toList ++ ['"']

def jsonOption (text : Option String) : List Char :=
  (text.map jsonString).getD "null".toList

/-- A key of a JSON object and its value. -/
def jsonField (key : String) (value : List Char) : List Char :=
  jsonString key ++ [':', ' '] ++ value

/-- The JSON text of a record without an error and without characters to escape. -/
def jsonText (record : Record) : List Char :=
  let state :=
    match record.state with
    | .starting => "starting"
    | .serving => "serving"
    | .stopped => "stopped"
    | .error => "error"
  let stopReason := record.stopReason.map fun
    | .signal => "signal"
    | .lifetimeExpired => "lifetime_expired"
  '\x7b' :: [',', ' '].intercalate [
    jsonField "session_id" (jsonString record.sessionId),
    jsonField "pid" (toString record.pid).toList,
    jsonField "state" (jsonString state),
    jsonField "error" (jsonOption record.error),
    jsonField "error_class" "null".toList,
    jsonField "root" (jsonString record.root),
    jsonField "bind_address" (jsonString record.bindAddress),
    jsonField "port" (toString record.port).toList,
    jsonField "url" (jsonOption record.url),
    jsonField "request_count" (toString record.requestCount).toList,
    jsonField "bytes_served" (toString record.bytesServed).toList,
    jsonField "last_request_at" (jsonOption record.lastRequestAt),
    jsonField "started_at" (jsonString record.startedAt),
    jsonField "updated_at" (jsonString record.updatedAt),
    jsonField "stop_reason" (jsonOption stopReason)] ++ ['\x7d']

/-- The records of a server that answers one request. -/
def sampleRecords : List Record :=
  [sampleRecord .starting 0 "t1", sampleRecord .starting 0 "t2", sampleRecord .serving 0 "t3",
    sampleRecord .serving 1 "t4", sampleRecord .stopped 1 "t5"]

def sampleFormat : Format Record where
  dumps := jsonText
  loads text := sampleRecords.find? fun record => jsonText record = text

def sampleDirectory : FileSystem StateName Char where
  inode _ := none
  content _ := []
  used := 0

def sampleServer : Server Unit where
  fs := sampleDirectory
  state := initialState "a" 7 "/srv" "127.0.0.1" 8000 "t0"

/-- The steps by which a thread persists. -/
def persisting (thread : Thread Unit) (now : String) : List (Action Unit) :=
  [.snapshot thread now, .openTemp thread, .write thread 1000, .replace thread]

/-- The main thread persists up to `serving`. -/
def untilServing : List (Action Unit) :=
  .advance .claim :: persisting .main "t1" ++
    .advance (.bind 8000 "http://127.0.0.1:8000/") :: persisting .main "t2" ++
    .advance .serve :: persisting .main "t3"

/-- The server stops while a request is being persisted. Both threads have taken their snapshots
before either opens the temporary file, and the handler goes first. -/
def requestThenStop : List (Action Unit) :=
  untilServing ++ [.count () 10 "t4", .snapshot (.handler ()) "t4", .advance (.stop .signal),
    .snapshot .main "t5", .openTemp (.handler ()), .write (.handler ()) 1000,
    .replace (.handler ()), .openTemp .main, .write .main 1000, .replace .main]

/-- The server stops while a handler is about to open the temporary file. -/
def stopDuringRequest : List (Action Unit) :=
  untilServing ++ [.count () 10 "t4", .snapshot (.handler ()) "t4"] ++
    .advance (.stop .signal) :: persisting .main "t5" ++
    [.openTemp (.handler ()), .write (.handler ()) 1000, .replace (.handler ())]

/-- The condition of an orderly step, for one handler. -/
def orderly (action : Action Unit) (s : Server Unit) : Bool :=
  match action with
  | .openTemp .main => !(s.phase (.handler ())).isWriting
  | .openTemp (.handler _) => !(s.phase .main).isWriting
  | .replace thread =>
      match (s.phase thread).snapshot, s.newest with
      | some (stamp, _), some newest => newest ≤ stamp
      | _, _ => true
  | _ => true

theorem orderly_sound (history : List (Action Unit)) (action : Action Unit) (s : Server Unit)
    (checked : orderly action s = true) : Server.Orderly history action s := by
  cases action with
  | openTemp thread =>
      intro other different
      cases thread with
      | main =>
          cases other with
          | main => exact absurd rfl different
          | handler id => simpa [orderly] using checked
      | handler id =>
          cases other with
          | main => simpa [orderly] using checked
          | handler id => exact absurd rfl different
  | replace thread =>
      intro stamp record newest taken renamed
      simpa [orderly, taken, renamed] using checked
  | advance _ => trivial
  | count _ _ _ => trivial
  | snapshot _ _ => trivial
  | write _ _ => trivial

/-- The records that were snapshots are read back from their texts. -/
def readsBack (s : Server Unit) : Bool :=
  s.snapshots.all fun record => sampleFormat.loads (sampleFormat.dumps record) = some record

theorem loads_of_readsBack {s : Server Unit} (checked : readsBack s = true) :
    ∀ record ∈ s.snapshots, sampleFormat.loads (sampleFormat.dumps record) = some record := by
  intro record mem
  simpa using List.all_eq_true.mp checked record mem

theorem requestThenStop_ends :
    (Schedule.execIf (Server.step sampleFormat) orderly requestThenStop sampleServer).any
      (fun s => readsBack s &&
        s.shown.getLast? == some (jsonText (sampleRecord .stopped 1 "t5"))) = true := by
  decide +kernel

/-- Two threads that persist at the same time, in order: the last record is that of a stopped
server. -/
theorem steady_requestThenStop :
    ∃ s, Schedule.Run (Server.step sampleFormat) Server.Orderly sampleServer requestThenStop s ∧
      Server.Steady sampleFormat s ∧
      s.shown.getLast? = some (jsonText (sampleRecord .stopped 1 "t5")) := by
  rcases (Option.any_eq_true _ _).mp requestThenStop_ends with ⟨s, executes, checked⟩
  rw [Bool.and_eq_true, beq_iff_eq] at checked
  have run : Schedule.Run (Server.step sampleFormat) Server.Orderly sampleServer
      ([] ++ requestThenStop) s := Schedule.Run.nil.execIf orderly_sound executes
  have wellFormed : sampleDirectory.WellFormed := by
    intro name i bound
    cases bound
  refine ⟨s, run, ?_, checked.2⟩
  exact @Server.steady_of_orderly Unit _ sampleFormat sampleDirectory wellFormed rfl "a" 7 "/srv"
    "127.0.0.1" 8000 "t0" requestThenStop _ run (loads_of_readsBack checked.1)

theorem stopDuringRequest_ends :
    (Schedule.exec (Server.step sampleFormat) stopDuringRequest sampleServer).any
      (fun s => readsBack s &&
        s.shown[17]? == some (jsonText (sampleRecord .stopped 1 "t5")) &&
        s.shown[20]? == some (jsonText (sampleRecord .serving 1 "t4"))) = true := by
  decide +kernel

/-- A handler renames its snapshot of a serving server over the record of a stopped one. -/
theorem not_steady_stopDuringRequest :
    ∃ s, Schedule.Run (Server.step sampleFormat) (fun _ _ _ => True) sampleServer
        stopDuringRequest s ∧
      (∀ record ∈ s.snapshots, sampleFormat.loads (sampleFormat.dumps record) = some record) ∧
      ¬ Server.Steady sampleFormat s := by
  rcases (Option.any_eq_true _ _).mp stopDuringRequest_ends with ⟨s, executes, checked⟩
  rw [Bool.and_eq_true, Bool.and_eq_true, beq_iff_eq, beq_iff_eq] at checked
  have run : Schedule.Run (Server.step sampleFormat) (fun _ _ _ => True) sampleServer
      ([] ++ stopDuringRequest) s :=
    Schedule.Run.nil.exec (fun _ _ _ _ _ => trivial) executes
  refine ⟨s, run, loads_of_readsBack checked.1.1, ?_⟩
  intro steady
  rcases List.getElem?_eq_some_iff.mp checked.1.2 with ⟨stopped, isStopped⟩
  rcases List.getElem?_eq_some_iff.mp checked.2 with ⟨serving, isServing⟩
  have backwards := List.pairwise_iff_getElem.mp steady.forward 17 20 stopped serving (by decide)
    (sampleRecord .stopped 1 "t5") (sampleRecord .serving 1 "t4")
    (by rw [isStopped]; decide +kernel) (by rw [isServing]; decide +kernel) (.inr rfl)
  exact absurd backwards.state (by decide)

end Asmb8Ikvm.HttpOrigin

import Asmb8Ikvm.Modules.CheckMode

/-!
# Stopping sessions

Whom `reclaim_conflicting_sessions`, `_detach` and `_stop` signal. A record is
looked at once, its pid is probed and signalled later, and in between the host
goes on: the process may exit, and its pid may be taken by another one. What the
programs guarantee by themselves is that every pid they probe or signal comes
from a record they have looked at; whether it is the daemon of the record is up
to the host.
-/

namespace Asmb8Ikvm.Modules

open Interaction Asmb8Ikvm.Runtime

variable {S : Type}

/-- The programs that stop sessions, outside of check mode. -/
inductive StopTask where
  | reclaim (endpoint excluded : Name) (stopPolls : ℕ)
  | stop (params : Params) (sessionId : Name)

def StopTask.script [DecidableEq S] (policy : Policy S) (codec : Codec S) :
    StopTask → Script S Unit
  | .reclaim endpoint excluded stopPolls => do
      let _reclaimed ← reclaimConflictingSessions codec endpoint excluded stopPolls
      pure ()
  | .stop params sessionId => do
      let _result ← Modules.stop policy codec { params with checkMode := false } sessionId
      pure ()

/-- The records a task is about. -/
def StopTask.Targets (task : StopTask) (sessionId : Name) (record : StateRecord S) : Prop :=
  match task with
  | .reclaim endpoint excluded _ => sessionId ≠ excluded ∧ record.endpoint = some endpoint
  | .stop _ stopped => sessionId = stopped

/-- The file that is removed for a record of this session is its own. -/
def StopTask.Names (task : StopTask) (sessionId : Name) (record : StateRecord S) : Prop :=
  match task with
  | .reclaim _ _ _ => record.sessionId = some sessionId
  | .stop _ _ => True

/-- A look at the record of a session. -/
structure Look (codec : Codec S) (moment : Moment Call World) (sessionId : Name)
    (record : StateRecord S) : Prop where
  reads : moment.request = .readFile (stateFilePath sessionId)
  finds : loaded codec moment.world sessionId = .record record

/-- A pid `os.kill` does not take. -/
def Unusable (pid : PidField) : Prop :=
  pid = .other ∨ ∃ number, pid = .int number ∧ pidLimit ≤ number

/-- A signal was refused, since its process belongs to another user. -/
def Refused (trace : List (Moment Call World)) : Prop :=
  ∃ moment ∈ trace, ∃ pid process, moment.request = .kill pid .sigterm ∧
    moment.world.processes pid = some process ∧ process.signalable = false

/-- A state file was read that is not text. -/
def Undecodable (codec : Codec S) (trace : List (Moment Call World)) : Prop :=
  ∃ moment ∈ trace, ∃ sessionId, moment.request = .readFile (stateFilePath sessionId) ∧
    loaded codec moment.world sessionId = .undecodable

/-- What a program does that only deals with one pid. -/
structure Signalling {α : Type} (pid : PidField) (trace : List (Moment Call World))
    (outcome : Except (Failure S) α) : Prop where
  requests : ∀ moment ∈ trace, ∃ number signal, pid = .int number ∧
    moment.request = .kill number signal
  fails : ∀ failure, outcome = .error failure → Unusable pid ∨ Refused trace

section Signalling

variable {α β : Type} {pid : PidField} {trace later : List (Moment Call World)}

theorem signalling_ok (pid : PidField) (result : α) :
    Signalling (S := S) pid [] (.ok result) where
  requests := fun _ mem => absurd mem List.not_mem_nil
  fails := fun _ failed => by cases failed

theorem Refused.append (refused : Refused trace) : Refused (trace ++ later) := by
  rcases refused with ⟨moment, mem, rest⟩
  exact ⟨moment, List.mem_append_left _ mem, rest⟩

theorem Refused.behind (refused : Refused later) : Refused (trace ++ later) := by
  rcases refused with ⟨moment, mem, rest⟩
  exact ⟨moment, List.mem_append_right _ mem, rest⟩

theorem Refused.cons {first : Moment Call World} (refused : Refused trace) :
    Refused (first :: trace) := by
  rcases refused with ⟨moment, mem, rest⟩
  exact ⟨moment, List.mem_cons_of_mem _ mem, rest⟩

theorem Signalling.append {result : α} {outcome : Except (Failure S) β}
    (first : Signalling (S := S) pid trace (.ok result))
    (second : Signalling pid later outcome) : Signalling pid (trace ++ later) outcome where
  requests := by
    intro moment mem
    rcases List.mem_append.mp mem with earlier | after
    · exact first.requests moment earlier
    · exact second.requests moment after
  fails := fun failure failed => (second.fails failure failed).imp_right Refused.behind

/-- Programs that deal with one pid, one after the other. -/
theorem signalling_bind {prog : Script S α} {rest : α → Script S β}
    (first : Ensures perform (fun _ => True) prog (Signalling pid))
    (second : ∀ result, Ensures perform (fun _ => True) (rest result) (Signalling pid)) :
    Ensures perform (fun _ => True) (prog >>= rest) (Signalling pid) := by
  refine first.bind ?_ ?_
  · intro before failure failed
    exact ⟨failed.requests, fun failure same => failed.fails failure (by cases same; rfl)⟩
  · intro before result done
    exact (second result).mono fun trace outcome => done.append

theorem signalling_kill {number : ℤ} {signal : Signal} {world : World}
    {outcome : Except (Failure S) α}
    (fails : ∀ failure, outcome = .error failure → Unusable (.int number) ∨
      (signal = .sigterm ∧ world.kill number = .permissionError)) :
    Signalling (.int number) [⟨.kill number signal, world⟩] outcome where
  requests := by
    intro moment mem
    rw [List.mem_singleton] at mem
    exact ⟨number, signal, rfl, by rw [mem]⟩
  fails := by
    intro failure failed
    rcases fails failure failed with unusable | ⟨rfl, refused⟩
    · exact .inl unusable
    · right
      unfold World.kill at refused
      split at refused
      · cases refused
      · split at refused
        · cases refused
        · next process found =>
            split at refused
            · cases refused
            · next unsignalable =>
                exact ⟨_, List.mem_singleton_self _, number, process, rfl, found, by
                  simpa using unsignalable⟩

theorem unusable_of_overflow {world : World} {number : ℤ}
    (overflows : world.kill number = .overflowError) : Unusable (.int number) := by
  unfold World.kill at overflows
  split at overflows
  · next beyond => exact .inr ⟨number, rfl, beyond⟩
  · split at overflows
    · cases overflows
    · split at overflows <;> cases overflows

theorem signalling_isPidAlive (pid : PidField) :
    Ensures perform (fun _ => True) (isPidAlive pid : Script S Bool) (Signalling pid) := by
  cases pid with
  | null => exact signalling_ok _ _
  | other => exact ⟨fun _ mem => absurd mem List.not_mem_nil, fun _ _ => .inl (.inl rfl)⟩
  | int number =>
      by_cases positive : number ≤ 0
      · rw [isPidAlive_of_nonpos positive]
        exact signalling_ok _ _
      · rw [isPidAlive_of_pos positive]
        refine ensures_call_ofExcept fun world _ => signalling_kill fun failure failed => ?_
        change probeOutcome (world.kill number) = _ at failed
        cases answer : world.kill number with
        | overflowError => exact .inl (unusable_of_overflow answer)
        | _ =>
            rw [answer] at failed
            cases failed

theorem signalling_requestStop (pid : PidField) :
    Ensures perform (fun _ => True) (requestStop pid : Script S Unit) (Signalling pid) := by
  cases pid with
  | null => exact signalling_ok _ _
  | other => exact ⟨fun _ mem => absurd mem List.not_mem_nil, fun _ _ => .inl (.inl rfl)⟩
  | int number =>
      by_cases positive : number ≤ 0
      · rw [requestStop_of_nonpos positive]
        exact signalling_ok _ _
      · rw [requestStop_of_pos positive]
        refine ensures_call_ofExcept fun world _ => signalling_kill fun failure failed => ?_
        change stopOutcome (world.kill number) = _ at failed
        cases answer : world.kill number with
        | overflowError => exact .inl (unusable_of_overflow answer)
        | permissionError => exact .inr ⟨rfl, rfl⟩
        | _ =>
            rw [answer] at failed
            cases failed

theorem signalling_waitForExit (pid : PidField) (polls : ℕ) :
    Ensures perform (fun _ => True) (waitForExit pid polls : Script S Bool) (Signalling pid) := by
  induction polls with
  | zero => exact signalling_bind (signalling_isPidAlive pid) fun _ => signalling_ok _ _
  | succ polls ih =>
      refine signalling_bind (signalling_isPidAlive pid) fun isAlive => ?_
      cases isAlive with
      | true => exact ih
      | false => exact signalling_ok _ _

theorem signalling_stopProcess (pid : PidField) (polls : ℕ) :
    Ensures perform (fun _ => True) (stopProcess pid polls : Script S Unit) (Signalling pid) := by
  refine signalling_bind (signalling_isPidAlive pid) fun isAlive => ?_
  cases isAlive with
  | true =>
      exact signalling_bind (signalling_requestStop pid) fun _ =>
        signalling_bind (signalling_waitForExit pid polls) fun _ => signalling_ok _ _
  | false => exact signalling_ok _ _

end Signalling

/-- What is looked at by a program that only reads records. -/
structure Reads (codec : Codec S) (Wanted : Name → StateRecord S → Prop)
    (trace : List (Moment Call World)) (outcome : Except (Failure S) (List (StateRecord S))) :
    Prop where
  requests : ∀ moment ∈ trace, moment.request = .listSessionIds ∨
    ∃ sessionId, moment.request = .readFile (stateFilePath sessionId)
  fails : ∀ failure, outcome = .error failure → Undecodable codec trace
  found : ∀ records, outcome = .ok records → ∀ record ∈ records,
    ∃ look ∈ trace, ∃ sessionId, Look codec look sessionId record ∧ Wanted sessionId record
  complete : ∀ records, outcome = .ok records → ∀ look ∈ trace, ∀ sessionId record,
    Look codec look sessionId record → Wanted sessionId record → record ∈ records

/-- A removal, or a signal to the pid of one of the records. -/
def Serves (states : List (StateRecord S)) (request : Call) : Prop :=
  (∃ file, request = .unlink file) ∨
    ∃ state ∈ states, ∃ number signal, state.pid = .int number ∧ request = .kill number signal

/-- What is done with records that were found. -/
structure Handles {α : Type} (states : List (StateRecord S)) (trace : List (Moment Call World))
    (outcome : Except (Failure S) α) : Prop where
  requests : ∀ moment ∈ trace, Serves states moment.request
  fails : ∀ failure, outcome = .error failure →
    (∃ state ∈ states, Unusable state.pid) ∨ Refused trace
  removed : ∀ result, outcome = .ok result → ∀ state ∈ states, ∀ sessionId,
    state.sessionId = some sessionId →
      ∃ moment ∈ trace, moment.request = .unlink (stateFilePath sessionId)

section Reclaim

variable {α : Type} {trace later : List (Moment Call World)}

theorem Undecodable.behind {codec : Codec S} (undecodable : Undecodable codec later) :
    Undecodable codec (trace ++ later) := by
  rcases undecodable with ⟨moment, mem, rest⟩
  exact ⟨moment, List.mem_append_right _ mem, rest⟩

theorem Undecodable.cons {codec : Codec S} {first : Moment Call World}
    (undecodable : Undecodable codec trace) : Undecodable codec (first :: trace) := by
  rcases undecodable with ⟨moment, mem, rest⟩
  exact ⟨moment, List.mem_cons_of_mem _ mem, rest⟩

theorem Undecodable.append {codec : Codec S} (undecodable : Undecodable codec trace) :
    Undecodable codec (trace ++ later) := by
  rcases undecodable with ⟨moment, mem, rest⟩
  exact ⟨moment, List.mem_append_left _ mem, rest⟩

/-- A removal only unlinks, and unlinks the record. -/
theorem ensures_removeRecord (kind : DaemonKind) (sessionId : Name)
    {Post : List (Moment Call World) → Except (Failure S) Unit → Prop}
    (removes : ∀ trace, (∀ moment ∈ trace, ∃ file, moment.request = .unlink file) →
      (∃ moment ∈ trace, moment.request = .unlink (stateFilePath sessionId)) →
        Post trace (.ok ())) :
    Ensures perform (fun _ => True) (removeRecord kind sessionId) Post := by
  intro first _ second _ third _
  refine removes _ ?_ ⟨_, List.mem_cons_self, rfl⟩
  intro moment mem
  simp only [List.mem_cons, List.not_mem_nil, or_false] at mem
  rcases mem with rfl | rfl | rfl <;> exact ⟨_, rfl⟩

theorem look_single {codec : Codec S} {world : World} {sessionId other : Name}
    {look : Moment Call World} {record : StateRecord S}
    (mem : look ∈ [(⟨.readFile (stateFilePath sessionId), world⟩ : Moment Call World)])
    (isLook : Look codec look other record) :
    other = sessionId ∧ loaded codec world sessionId = .record record := by
  rw [List.mem_singleton] at mem
  subst mem
  have same : sessionId = other := stateFilePath_injective (Call.readFile.inj isLook.reads)
  subst same
  exact ⟨rfl, isLook.finds⟩

theorem Reads.cons_error {codec : Codec S} {W : Name → StateRecord S → Prop} {world : World}
    {sessionId : Name} {failure : Failure S} (rest : Reads codec W trace (.error failure)) :
    Reads codec W (⟨.readFile (stateFilePath sessionId), world⟩ :: trace) (.error failure) where
  requests := by
    intro moment mem
    rcases List.mem_cons.mp mem with rfl | after
    · exact .inr ⟨sessionId, rfl⟩
    · exact rest.requests moment after
  fails := fun failure failed => (rest.fails failure failed).cons
  found := fun _ failed => by cases failed
  complete := fun _ failed => by cases failed

/-- A look that is kept when it is wanted, before the others. -/
theorem Reads.cons_ok {codec : Codec S} {W : Name → StateRecord S → Prop} {world : World}
    {sessionId : Name} {others records : List (StateRecord S)}
    (rest : Reads codec W trace (.ok others))
    (kept : ∀ record, record ∈ records ↔
      record ∈ others ∨ (loaded codec world sessionId = .record record ∧ W sessionId record)) :
    Reads codec W (⟨.readFile (stateFilePath sessionId), world⟩ :: trace) (.ok records) where
  requests := by
    intro moment mem
    rcases List.mem_cons.mp mem with rfl | after
    · exact .inr ⟨sessionId, rfl⟩
    · exact rest.requests moment after
  fails := fun _ failed => by cases failed
  found := by
    intro given same record mem
    cases same
    rcases (kept record).mp mem with other | ⟨finds, wanted⟩
    · rcases rest.found _ rfl record other with ⟨look, lookMem, found⟩
      exact ⟨look, List.mem_cons_of_mem _ lookMem, found⟩
    · exact ⟨_, List.mem_cons_self, sessionId, ⟨rfl, finds⟩, wanted⟩
  complete := by
    intro given same look mem other record isLook wanted
    cases same
    rcases List.mem_cons.mp mem with rfl | after
    · rcases look_single (List.mem_singleton_self _) isLook with ⟨rfl, finds⟩
      exact (kept record).mpr (.inr ⟨finds, wanted⟩)
    · exact (kept record).mpr (.inl (rest.complete _ rfl look after other record isLook wanted))

theorem reads_findConflictsAmong (codec : Codec S) (endpoint excluded : Name)
    (sessionIds : List Name) :
    Ensures perform (fun _ => True) (findConflictsAmong codec endpoint excluded sessionIds)
      (Reads codec fun sessionId record =>
        sessionId ≠ excluded ∧ record.endpoint = some endpoint) := by
  induction sessionIds with
  | nil =>
      refine ⟨fun _ mem => absurd mem List.not_mem_nil, ?_, ?_,
        fun _ _ _ mem => absurd mem List.not_mem_nil⟩
      · intro failure failed
        cases failed
      · intro records same record mem
        cases same
        exact absurd mem List.not_mem_nil
  | cons sessionId sessionIds ih =>
      unfold findConflictsAmong
      split
      · exact ih
      · next wanted =>
          refine (look_readState codec sessionId).bind ?_ ?_
          · rintro trace failure ⟨world, rfl, failed⟩
            have found := undecodable_of_readOutcome failed.symm
            refine ⟨?_, ?_, fun _ failed => (by cases failed), ?_⟩
            · intro moment mem
              exact .inr ⟨sessionId, by rw [List.mem_singleton.mp mem]⟩
            · intro failure failed
              exact ⟨_, List.mem_singleton_self _, sessionId, rfl, found⟩
            · intro records failed
              cases failed
          · rintro before state ⟨world, rfl, outcome⟩
            refine ih.bind (fun trace failure failed => failed.cons_error) ?_
            intro trace others read
            cases found : loaded codec world sessionId with
            | undecodable =>
                rw [found] at outcome
                cases outcome
            | noRecord =>
                rw [found] at outcome
                cases outcome
                change Reads codec _ ([_] ++ (trace ++ [])) (.ok others)
                rw [List.append_nil]
                exact read.cons_ok fun record => by simp [found]
            | record record =>
                rw [found] at outcome
                cases outcome
                dsimp only
                split
                · next same =>
                    change Reads codec _ ([_] ++ (trace ++ [])) (.ok (record :: others))
                    rw [List.append_nil]
                    refine read.cons_ok fun other => ?_
                    rw [List.mem_cons, found, Loaded.record.injEq]
                    constructor
                    · rintro (rfl | kept)
                      · exact .inr ⟨rfl, wanted, same⟩
                      · exact .inl kept
                    · rintro (kept | ⟨rfl, -⟩)
                      · exact .inr kept
                      · exact .inl rfl
                · next different =>
                    change Reads codec _ ([_] ++ (trace ++ [])) (.ok others)
                    rw [List.append_nil]
                    refine read.cons_ok fun other => ?_
                    rw [found, Loaded.record.injEq]
                    constructor
                    · exact .inl
                    · rintro (kept | ⟨rfl, -, same⟩)
                      · exact kept
                      · exact absurd same different

/-- A process that was dealt with, and then its record. -/
theorem handles_reclaim (stopPolls : ℕ) (state : StateRecord S) :
    Ensures perform (fun _ => True) (reclaim stopPolls state : Script S Unit)
      (Handles [state]) := by
  refine (signalling_stopProcess state.pid stopPolls).bind ?_ ?_
  · intro trace failure failed
    refine ⟨?_, ?_, fun _ same => (by cases same)⟩
    · intro moment mem
      exact .inr ⟨state, List.mem_singleton_self _, failed.requests moment mem⟩
    · intro other same
      refine (failed.fails failure rfl).imp_left ?_
      exact fun unusable => ⟨state, List.mem_singleton_self _, unusable⟩
  · intro before result signalled
    cases sessionId : state.sessionId with
    | none =>
        refine ⟨?_, fun _ same => (by cases same), ?_⟩
        · intro moment mem
          rw [List.append_nil] at mem
          exact .inr ⟨state, List.mem_singleton_self _, signalled.requests moment mem⟩
        · intro _ _ other mem otherId named
          rw [List.mem_singleton.mp mem, sessionId] at named
          cases named
    | some id =>
        refine ensures_removeRecord .media id fun trace unlinks removed => ?_
        refine ⟨?_, fun _ same => (by cases same), ?_⟩
        · intro moment mem
          rcases List.mem_append.mp mem with earlier | after
          · exact .inr ⟨state, List.mem_singleton_self _, signalled.requests moment earlier⟩
          · exact .inl (unlinks moment after)
        · intro _ _ other mem otherId named
          rw [List.mem_singleton.mp mem, sessionId] at named
          cases named
          rcases removed with ⟨moment, after, unlinks⟩
          exact ⟨moment, List.mem_append_right _ after, unlinks⟩

theorem Serves.mono {states others : List (StateRecord S)} {request : Call}
    (serves : Serves states request) (subset : states ⊆ others) : Serves others request :=
  serves.imp_right fun ⟨state, mem, rest⟩ => ⟨state, subset mem, rest⟩

theorem handles_reclaimAll (stopPolls : ℕ) (states : List (StateRecord S)) :
    Ensures perform (fun _ => True) (reclaimAll stopPolls states) (Handles states) := by
  induction states with
  | nil =>
      refine ⟨fun _ mem => absurd mem List.not_mem_nil, fun _ same => (by cases same), ?_⟩
      exact fun _ _ _ mem => absurd mem List.not_mem_nil
  | cons state states ih =>
      have here : [state] ⊆ state :: states := by
        simp
      have there : states ⊆ state :: states :=
        List.subset_cons_self state states
      refine (handles_reclaim stopPolls state).bind ?_ ?_
      · intro trace failure failed
        refine ⟨fun moment mem => (failed.requests moment mem).mono here, ?_,
          fun _ same => (by cases same)⟩
        intro other same
        refine (failed.fails failure rfl).imp_left ?_
        rintro ⟨other, otherMem, unusable⟩
        exact ⟨other, here otherMem, unusable⟩
      · intro before result first
        refine ih.bind ?_ ?_
        · intro trace failure failed
          refine ⟨?_, ?_, fun _ same => (by cases same)⟩
          · intro moment mem
            rcases List.mem_append.mp mem with earlier | after
            · exact (first.requests moment earlier).mono here
            · exact (failed.requests moment after).mono there
          · intro other same
            refine (failed.fails failure rfl).imp ?_ Refused.behind
            rintro ⟨other, otherMem, unusable⟩
            exact ⟨other, there otherMem, unusable⟩
        · intro trace reclaimed others
          refine ⟨?_, fun _ same => (by cases same), ?_⟩
          · intro moment mem
            rw [List.append_nil] at mem
            rcases List.mem_append.mp mem with earlier | after
            · exact (first.requests moment earlier).mono here
            · exact (others.requests moment after).mono there
          · intro _ _ other mem sessionId named
            rw [List.append_nil]
            rcases List.mem_cons.mp mem with rfl | otherMem
            · rcases first.removed _ rfl _ (List.mem_singleton_self _) sessionId named
                with ⟨moment, earlier, unlinks⟩
              exact ⟨moment, List.mem_append_left _ earlier, unlinks⟩
            · rcases others.removed _ rfl other otherMem sessionId named
                with ⟨moment, after, unlinks⟩
              exact ⟨moment, List.mem_append_right _ after, unlinks⟩

end Reclaim

/-- What a task does, whatever the host does meanwhile. -/
structure Tidy {α : Type} (codec : Codec S) (task : StopTask) (trace : List (Moment Call World))
    (outcome : Except (Failure S) α) : Prop where
  signals : ∀ moment ∈ trace, ∀ number signal, moment.request = .kill number signal →
    ∃ look sessionId record, [look, moment].Sublist trace ∧ Look codec look sessionId record ∧
      task.Targets sessionId record ∧ record.pid = .int number
  fails : ∀ failure, outcome = .error failure → Undecodable codec trace ∨ Refused trace ∨
    ∃ look ∈ trace, ∃ sessionId record, Look codec look sessionId record ∧
      task.Targets sessionId record ∧ Unusable record.pid
  removed : ∀ result, outcome = .ok result → ∀ look ∈ trace, ∀ sessionId record,
    Look codec look sessionId record → task.Targets sessionId record →
      task.Names sessionId record →
        ∃ moment ∈ trace, moment.request = .unlink (stateFilePath sessionId)

/-- What follows the signals of a task on one session. -/
structure Closes {α : Type} (codec : Codec S) (sessionId : Name)
    (trace : List (Moment Call World)) (outcome : Except (Failure S) α) : Prop where
  requests : ∀ moment ∈ trace, ∀ number signal, moment.request ≠ .kill number signal
  fails : ∀ failure, outcome = .error failure → Undecodable codec trace
  removed : ∀ result, outcome = .ok result →
    ∃ moment ∈ trace, moment.request = .unlink (stateFilePath sessionId)

section Tasks

variable {α β : Type} {trace later : List (Moment Call World)}

theorem sublist_append {first second : Moment Call World} (earlier : first ∈ trace)
    (after : second ∈ later) : [first, second].Sublist (trace ++ later) :=
  (List.singleton_sublist.mpr earlier).append (List.singleton_sublist.mpr after)

theorem Tidy.map {codec : Codec S} {task : StopTask} {prog : Script S α} (f : α → β)
    (tidy : Ensures perform (fun _ => True) prog (Tidy codec task)) :
    Ensures perform (fun _ => True) (prog >>= fun result => pure (f result))
      (Tidy codec task) := by
  refine tidy.bind ?_ ?_
  · intro trace failure failed
    exact ⟨failed.signals, fun other same => failed.fails other (by cases same; rfl),
      fun _ same => (by cases same)⟩
  · intro before result done
    refine ⟨?_, fun _ same => (by cases same), ?_⟩
    · rw [List.append_nil]
      exact done.signals
    · rw [List.append_nil]
      exact fun _ _ => done.removed result rfl

theorem reads_findConflictingSessions (codec : Codec S) (endpoint excluded : Name) :
    Ensures perform (fun _ => True) (findConflictingSessions codec endpoint excluded)
      (Reads codec fun sessionId record =>
        sessionId ≠ excluded ∧ record.endpoint = some endpoint) := by
  intro world _
  refine (reads_findConflictsAmong codec endpoint excluded _).mono fun trace outcome reads => ?_
  have first (look : Moment Call World) (sessionId : Name) (record : StateRecord S)
      (mem : look ∈ (⟨.listSessionIds, world⟩ : Moment Call World) :: trace)
      (isLook : Look codec look sessionId record) : look ∈ trace := by
    rcases List.mem_cons.mp mem with rfl | after
    · exact absurd isLook.reads (by simp)
    · exact after
  refine ⟨?_, ?_, ?_, ?_⟩
  · intro moment mem
    rcases List.mem_cons.mp mem with rfl | after
    · exact .inl rfl
    · exact reads.requests moment after
  · intro failure failed
    exact (reads.fails failure failed).cons
  · intro records same record mem
    rcases reads.found records same record mem with ⟨look, lookMem, found⟩
    exact ⟨look, List.mem_cons_of_mem _ lookMem, found⟩
  · intro records same look mem sessionId record isLook
    exact reads.complete records same look (first look sessionId record mem isLook) sessionId
      record isLook

theorem tidy_reclaim (codec : Codec S) (endpoint excluded : Name) (stopPolls : ℕ) :
    Ensures perform (fun _ => True)
      (reclaimConflictingSessions codec endpoint excluded stopPolls)
      (Tidy codec (.reclaim endpoint excluded stopPolls)) := by
  refine (reads_findConflictingSessions codec endpoint excluded).bind ?_ ?_
  · intro trace failure failed
    refine ⟨?_, fun other _ => .inl (failed.fails failure rfl), fun _ same => (by cases same)⟩
    intro moment mem number signal kills
    rcases failed.requests moment mem with lists | ⟨sessionId, reads⟩
    · rw [lists] at kills
      cases kills
    · rw [reads] at kills
      cases kills
  · intro before conflicts reads
    refine (handles_reclaimAll stopPolls conflicts).mono fun trace outcome handles => ?_
    refine ⟨?_, ?_, ?_⟩
    · intro moment mem number signal kills
      rcases List.mem_append.mp mem with earlier | after
      · rcases reads.requests moment earlier with lists | ⟨sessionId, looks⟩
        · rw [lists] at kills
          cases kills
        · rw [looks] at kills
          cases kills
      · rcases handles.requests moment after with ⟨file, unlinks⟩ | ⟨state, stateMem, number',
          signal', isPid, kills'⟩
        · rw [unlinks] at kills
          cases kills
        · rw [kills'] at kills
          cases kills
          rcases reads.found conflicts rfl state stateMem
            with ⟨look, lookMem, sessionId, isLook, targets⟩
          exact ⟨look, sessionId, state, sublist_append lookMem after, isLook, targets, isPid⟩
    · intro failure failed
      rcases handles.fails failure failed with ⟨state, stateMem, unusable⟩ | refused
      · rcases reads.found conflicts rfl state stateMem
          with ⟨look, lookMem, sessionId, isLook, targets⟩
        exact .inr (.inr ⟨look, List.mem_append_left _ lookMem, sessionId, state, isLook, targets,
          unusable⟩)
      · exact .inr (.inl refused.behind)
    · intro result done look mem sessionId record isLook targets names
      rcases List.mem_append.mp mem with earlier | after
      · have conflict := reads.complete conflicts rfl look earlier sessionId record isLook targets
        rcases handles.removed result done record conflict sessionId names
          with ⟨moment, momentMem, unlinks⟩
        exact ⟨moment, List.mem_append_right _ momentMem, unlinks⟩
      · rcases handles.requests look after with ⟨file, unlinks⟩ | ⟨_, _, _, _, _, kills⟩
        · rw [isLook.reads] at unlinks
          cases unlinks
        · rw [isLook.reads] at kills
          cases kills

theorem ensures_readTrace (kind : DaemonKind) (sessionId : Name) :
    Ensures perform (fun _ => True) (readTrace kind sessionId : Script S Unit)
      fun trace outcome => outcome = .ok () ∧
        ∀ moment ∈ trace, moment.request = .readFile (readTraceLogPath sessionId) := by
  cases kind with
  | media =>
      intro world _
      refine ⟨rfl, fun moment mem => ?_⟩
      rw [List.mem_singleton.mp mem]
  | httpOrigin => exact ⟨rfl, fun _ mem => absurd mem List.not_mem_nil⟩

theorem closes_remove (codec : Codec S) (kind : DaemonKind) (sessionId : Name) (result : α) :
    Ensures perform (fun _ => True)
      (do
        readTrace kind sessionId
        removeRecord kind sessionId
        pure result : Script S α)
      (Closes codec sessionId) := by
  refine (ensures_readTrace kind sessionId).bind (fun trace failure failed => by cases failed.1) ?_
  rintro before _ ⟨-, reads⟩
  have removes : Ensures perform (fun _ => True) (removeRecord kind sessionId : Script S Unit)
      fun trace outcome => outcome = .ok () ∧
        (∀ moment ∈ trace, ∃ file, moment.request = .unlink file) ∧
          ∃ moment ∈ trace, moment.request = .unlink (stateFilePath sessionId) :=
    ensures_removeRecord kind sessionId fun trace unlinks removed => ⟨rfl, unlinks, removed⟩
  refine removes.bind (fun trace failure failed => by cases failed.1) ?_
  rintro trace _ ⟨-, unlinks, moment, mem, removes⟩
  refine ⟨?_, fun _ same => (by cases same), fun _ _ => ⟨moment, ?_, removes⟩⟩
  · rw [List.append_nil]
    intro other otherMem number signal kills
    rcases List.mem_append.mp otherMem with earlier | after
    · rw [reads other earlier] at kills
      cases kills
    · rcases unlinks other after with ⟨file, isUnlink⟩
      rw [isUnlink] at kills
      cases kills
  · rw [List.append_nil]
    exact List.mem_append_right _ mem

/-- The last look of a stop, and the removal. -/
theorem closes_final (codec : Codec S) (kind : DaemonKind) (sessionId : Name)
    (result : Option (StateRecord S) → α) :
    Ensures perform (fun _ => True)
      (do
        let final ← readState codec sessionId
        readTrace kind sessionId
        removeRecord kind sessionId
        pure (result final) : Script S α)
      (Closes codec sessionId) := by
  refine (look_readState codec sessionId).bind ?_ ?_
  · rintro trace failure ⟨world, rfl, failed⟩
    refine ⟨?_, ?_, fun _ same => (by cases same)⟩
    · intro moment mem number signal
      rw [List.mem_singleton.mp mem]
      simp
    · intro _ _
      exact ⟨_, List.mem_singleton_self _, sessionId, rfl,
        undecodable_of_readOutcome failed.symm⟩
  · rintro before final ⟨world, rfl, -⟩
    refine (closes_remove codec kind sessionId (result final)).mono fun trace outcome closes => ?_
    refine ⟨?_, fun failure failed => (closes.fails failure failed).behind, ?_⟩
    · intro moment mem number signal
      rcases List.mem_append.mp mem with first | after
      · rw [List.mem_singleton.mp first]
        simp
      · exact closes.requests moment after number signal
    · intro result done
      rcases closes.removed result done with ⟨moment, mem, removes⟩
      exact ⟨moment, List.mem_append_right _ mem, removes⟩

/-- A stop that has looked at a record, dealt with its pid, and closes. -/
theorem Signalling.tidy {codec : Codec S} {params : Params} {sessionId : Name}
    {record : StateRecord S} {world : World} {middle : α} {outcome : Except (Failure S) β}
    (found : loaded codec world sessionId = .record record)
    (signalling : Signalling (S := S) record.pid trace (.ok middle))
    (closes : Closes codec sessionId later outcome) :
    Tidy codec (.stop params sessionId)
      (⟨.readFile (stateFilePath sessionId), world⟩ :: (trace ++ later)) outcome where
  signals := by
    intro moment mem number signal kills
    rcases List.mem_cons.mp mem with rfl | mem
    · cases kills
    · rcases List.mem_append.mp mem with earlier | after
      · rcases signalling.requests moment earlier with ⟨number', signal', isPid, kills'⟩
        rw [kills] at kills'
        cases kills'
        refine ⟨⟨.readFile (stateFilePath sessionId), world⟩, sessionId, record, ?_, ⟨rfl, found⟩,
          rfl, isPid⟩
        exact sublist_append (List.mem_singleton_self _) (List.mem_append_left _ earlier)
      · exact absurd kills (closes.requests moment after number signal)
  fails := by
    intro failure failed
    exact .inl (closes.fails failure failed).behind.cons
  removed := by
    intro result done look mem other record isLook same names
    rcases closes.removed result done with ⟨moment, momentMem, removes⟩
    have same : other = sessionId := same
    subst same
    exact ⟨moment, List.mem_cons_of_mem _ (List.mem_append_right _ momentMem), removes⟩

theorem Signalling.tidy_error {codec : Codec S} {params : Params} {sessionId : Name}
    {record : StateRecord S} {world : World} {failure : Failure S}
    (found : loaded codec world sessionId = .record record)
    (signalling : Signalling (α := α) record.pid trace (.error failure)) :
    Tidy (α := β) codec (.stop params sessionId)
      (⟨.readFile (stateFilePath sessionId), world⟩ :: trace) (.error failure) where
  signals := by
    intro moment mem number signal kills
    rcases List.mem_cons.mp mem with rfl | mem
    · cases kills
    · rcases signalling.requests moment mem with ⟨number', signal', isPid, kills'⟩
      rw [kills] at kills'
      cases kills'
      exact ⟨_, sessionId, record, sublist_append (List.mem_singleton_self _) mem, ⟨rfl, found⟩,
        rfl, isPid⟩
  fails := by
    intro other same
    rcases signalling.fails failure rfl with unusable | refused
    · exact .inr (.inr ⟨_, List.mem_cons_self, sessionId, record, ⟨rfl, found⟩, rfl, unusable⟩)
    · exact .inr (.inl refused.cons)
  removed := fun _ same => (by cases same)

theorem tidy_stop [DecidableEq S] (policy : Policy S) (codec : Codec S) (params : Params)
    (sessionId : Name) :
    Ensures perform (fun _ => True)
      (Modules.stop policy codec { params with checkMode := false } sessionId)
      (Tidy codec (.stop params sessionId)) := by
  refine (look_readState codec sessionId).bind ?_ ?_
  · rintro trace failure ⟨world, rfl, failed⟩
    refine ⟨?_, ?_, fun _ same => (by cases same)⟩
    · intro moment mem number signal kills
      rw [List.mem_singleton.mp mem] at kills
      cases kills
    · intro _ _
      exact .inl ⟨_, List.mem_singleton_self _, sessionId, rfl,
        undecodable_of_readOutcome failed.symm⟩
  · rintro before existing ⟨world, rfl, outcome⟩
    cases found : loaded codec world sessionId with
    | undecodable =>
        rw [found] at outcome
        cases outcome
    | noRecord =>
        rw [found] at outcome
        cases outcome
        refine ⟨?_, fun _ same => (by cases same), ?_⟩
        · intro moment mem number signal kills
          rw [List.append_nil, List.mem_singleton] at mem
          rw [mem] at kills
          cases kills
        · intro _ _ look mem other record isLook
          rw [List.append_nil] at mem
          have finds := (look_single mem isLook).2
          rw [found] at finds
          cases finds
    | record record =>
        rw [found] at outcome
        cases outcome
        refine (signalling_isPidAlive record.pid).bind
          (fun trace failure failed => failed.tidy_error found) ?_
        intro probes isAlive probed
        simp only [Bool.false_eq_true, if_false]
        cases isAlive with
        | true =>
            rw [if_pos rfl]
            refine (signalling_requestStop record.pid).bind
              (fun trace failure failed => ?_) ?_
            · exact (probed.append failed).tidy_error found
            intro stops _ stopped
            refine (signalling_waitForExit record.pid params.stopPolls).bind
              (fun trace failure failed => ?_) ?_
            · exact (probed.append (stopped.append failed)).tidy_error found
            intro waits exited waited
            refine (closes_final codec policy.kind sessionId _).mono
              fun trace outcome closes => ?_
            have signalled := probed.append (stopped.append waited)
            simpa [List.append_assoc] using signalled.tidy found closes
        | false =>
            rw [if_neg (by simp)]
            refine (closes_remove codec policy.kind sessionId _).mono
              fun trace outcome closes => ?_
            simpa using probed.tidy found closes

theorem tidy_script [DecidableEq S] (policy : Policy S) (codec : Codec S) (task : StopTask) :
    Ensures perform (fun _ => True) (task.script policy codec) (Tidy codec task) := by
  cases task with
  | reclaim endpoint excluded stopPolls => exact Tidy.map _ (tidy_reclaim codec _ _ stopPolls)
  | stop params sessionId => exact Tidy.map _ (tidy_stop policy codec params sessionId)

end Tasks

/-- A process of the second world with this pid was there in the first. -/
def Kept (pid : ℤ) (world moved : World) : Prop :=
  ∀ process, moved.processes pid = some process → world.processes pid = some process

/-- The calls that start no daemon and give it no record. -/
def Spawnless : Call → Prop
  | .fork => False
  | .createFile _ _ => False
  | _ => True

theorem Kept.perform {pid : ℤ} {call : Call} {world : World} (spawnless : Spawnless call) :
    Kept pid world (perform call world).2 := by
  intro process present
  cases call with
  | listSessionIds => exact present
  | readFile file => exact present
  | unlink file => exact present
  | createFile file content => exact spawnless.elim
  | kill number signal => exact present
  | fork => exact spawnless.elim
  | openPath path => exact present

/-- While a pid is not taken by others, a process that has it at a call has had it at every
earlier call. -/
theorem kept_of_runs {α : Type} {others : World → World → Prop} {pid : ℤ} {prog : Script S α}
    {world final : World} {trace : List (Moment Call World)} {outcome : Except (Failure S) α}
    (noReuse : ∀ world moved, others world moved → Kept pid world moved)
    (only : prog.Only Spawnless) (run : Runs perform others prog world trace outcome final) :
    (∀ moment ∈ trace, Kept pid world moment.world) ∧
      trace.Pairwise fun first second => Kept pid first.world second.world := by
  induction run with
  | done => exact ⟨fun _ mem => absurd mem List.not_mem_nil, List.Pairwise.nil⟩
  | fail => exact ⟨fun _ mem => absurd mem List.not_mem_nil, List.Pairwise.nil⟩
  | call move rest ih =>
      rename_i request next world moved final trace outcome
      rcases ih (only.2 _) with ⟨later, pairwise⟩
      have after : ∀ moment ∈ trace, Kept pid moved moment.world :=
        fun moment mem process present =>
        Kept.perform only.1 process (later moment mem process present)
      refine ⟨?_, List.pairwise_cons.mpr ⟨after, pairwise⟩⟩
      intro moment mem process present
      rcases List.mem_cons.mp mem with rfl | tail
      · exact noReuse _ _ move process present
      · exact noReuse _ _ move process (after moment tail process present)

section Spawnless

theorem spawnless_of_idle (call : Call) (idle : Idle call) : Spawnless call := by
  cases call with
  | listSessionIds => trivial
  | readFile file => trivial
  | unlink file => trivial
  | createFile file content => exact idle
  | kill pid signal => trivial
  | fork => exact idle
  | openPath path => trivial

theorem spawnless_requestStop (pid : PidField) :
    (requestStop pid : Script S Unit).Only Spawnless := by
  cases pid with
  | null => trivial
  | other => trivial
  | int number =>
      simp only [requestStop]
      split
      · trivial
      · refine Prog.Only.bind ⟨trivial, fun _ => trivial⟩ ?_
        intro answer
        cases answer <;> trivial

theorem spawnless_isPidAlive (pid : PidField) : (isPidAlive pid : Script S Bool).Only Spawnless :=
  (only_isPidAlive pid).mono spawnless_of_idle

theorem spawnless_waitForExit (pid : PidField) (polls : ℕ) :
    (waitForExit pid polls : Script S Bool).Only Spawnless := by
  induction polls with
  | zero => exact (spawnless_isPidAlive pid).bind fun _ => trivial
  | succ polls ih =>
      refine (spawnless_isPidAlive pid).bind fun isAlive => ?_
      cases isAlive with
      | true => exact ih
      | false => trivial

theorem spawnless_stopProcess (pid : PidField) (polls : ℕ) :
    (stopProcess pid polls : Script S Unit).Only Spawnless := by
  refine (spawnless_isPidAlive pid).bind fun isAlive => ?_
  cases isAlive with
  | true =>
      exact (spawnless_requestStop pid).bind fun _ =>
        (spawnless_waitForExit pid polls).bind fun _ =>
        trivial
  | false => trivial

theorem spawnless_removeRecord (kind : DaemonKind) (sessionId : Name) :
    (removeRecord kind sessionId : Script S Unit).Only Spawnless :=
  ⟨trivial, fun _ => ⟨trivial, fun _ => ⟨trivial, fun _ => trivial⟩⟩⟩

theorem spawnless_reclaimAll (stopPolls : ℕ) (states : List (StateRecord S)) :
    (reclaimAll stopPolls states).Only Spawnless := by
  induction states with
  | nil => trivial
  | cons state states ih =>
      have first : (reclaim stopPolls state : Script S Unit).Only Spawnless := by
        refine (spawnless_stopProcess state.pid stopPolls).bind fun _ => ?_
        cases state.sessionId with
        | none => trivial
        | some sessionId => exact spawnless_removeRecord .media sessionId
      exact first.bind fun _ => ih.bind fun _ => trivial

theorem spawnless_stop (policy : Policy S) (codec : Codec S) (params : Params) (sessionId : Name) :
    (Modules.stop policy codec params sessionId).Only Spawnless := by
  have read := (only_readState codec sessionId).mono spawnless_of_idle
  have traced := (only_readTrace (S := S) policy.kind sessionId).mono spawnless_of_idle
  refine read.bind fun existing => ?_
  rcases existing with _ | record
  · trivial
  · refine (spawnless_isPidAlive record.pid).bind fun live => ?_
    have closing (result : Result S) : (do
        readTrace policy.kind sessionId
        removeRecord policy.kind sessionId
        pure result : Script S (Result S)).Only Spawnless :=
      traced.bind fun _ => (spawnless_removeRecord policy.kind sessionId).bind fun _ => trivial
    split
    · exact traced.bind fun _ => trivial
    · split
      · exact (spawnless_requestStop record.pid).bind fun _ =>
          (spawnless_waitForExit record.pid params.stopPolls).bind fun _ =>
            read.bind fun _ => closing _
      · exact closing _

theorem spawnless_script [DecidableEq S] (policy : Policy S) (codec : Codec S) (task : StopTask) :
    (task.script policy codec).Only Spawnless := by
  cases task with
  | reclaim endpoint excluded stopPolls =>
      have found := (only_findConflictingSessions codec endpoint excluded).mono spawnless_of_idle
      have all : (reclaimConflictingSessions codec endpoint excluded stopPolls).Only Spawnless :=
        found.bind fun conflicts => spawnless_reclaimAll stopPolls conflicts
      exact all.bind fun _ => trivial
  | stop params sessionId => exact (spawnless_stop policy codec _ sessionId).bind fun _ => trivial

end Spawnless

/-- A signal goes to the daemon of a record the task is about, of every such record that names
its pid, and none of these is terminal; nothing but an `IkvmError` is raised, and the records
are removed. -/
structure StopsOwn {α : Type} [DecidableEq S] (policy : Policy S) (codec : Codec S)
    (task : StopTask) (trace : List (Moment Call World)) (outcome : Except (Failure S) α) :
    Prop where
  asked : ∀ moment ∈ trace, ∀ pid, moment.request = .kill pid .sigterm →
    ∃ look sessionId record, [look, moment].Sublist trace ∧ Look codec look sessionId record ∧
      task.Targets sessionId record ∧ record.pid = .int pid
  own : ∀ look moment sessionId record pid process, [look, moment].Sublist trace →
    Look codec look sessionId record → task.Targets sessionId record → record.pid = .int pid →
      moment.request = .kill pid .sigterm → moment.world.processes pid = some process →
        process.identity = look.world.author sessionId ∧
          policy.isTerminal record.state = false
  raises : ∀ failure, outcome = .error failure → ∃ error, failure = .raised (.ikvm error)
  removed : ∀ look ∈ trace, ∀ sessionId record, Look codec look sessionId record →
    task.Targets sessionId record →
      ∃ moment ∈ trace, moment.request = .unlink (stateFilePath sessionId)

/-- The host keeps the pids of the records for their daemons. When a record is looked at and its
pid is then tried, the process with this pid, if there is one, is the daemon the record belongs
to, may be signalled, and has not reported a terminal state; while the task runs, nobody takes
the pid. The state files are text, their pids can be signalled, and a record bears the id of its
file. -/
structure Orderly [DecidableEq S] (policy : Policy S) (codec : Codec S) (task : StopTask)
    (others : World → World → Prop) (trace : List (Moment Call World)) : Prop where
  decodable : ¬ Undecodable codec trace
  usable : ∀ look ∈ trace, ∀ sessionId record, Look codec look sessionId record →
    task.Targets sessionId record → ¬ Unusable record.pid
  named : ∀ look ∈ trace, ∀ sessionId record, Look codec look sessionId record →
    task.Targets sessionId record → task.Names sessionId record
  own : ∀ look moment sessionId record pid signal process, [look, moment].Sublist trace →
    Look codec look sessionId record → task.Targets sessionId record → record.pid = .int pid →
      moment.request = .kill pid signal → look.world.processes pid = some process →
        process.identity = look.world.author sessionId ∧ process.signalable = true ∧
          policy.isTerminal record.state = false
  noReuse : ∀ look ∈ trace, ∀ sessionId record pid, Look codec look sessionId record →
    task.Targets sessionId record → record.pid = .int pid →
      ∀ world moved, others world moved → Kept pid world moved

/-- On an orderly host the tasks stop their own daemons, and only these. -/
theorem stopsOwn_of_orderly [DecidableEq S] (policy : Policy S) (codec : Codec S)
    (task : StopTask) {others : World → World → Prop} {world final : World}
    {trace : List (Moment Call World)} {outcome : Except (Failure S) Unit}
    (run : Runs perform others (task.script policy codec) world trace outcome final)
    (orderly : Orderly policy codec task others trace) :
    StopsOwn policy codec task trace outcome := by
  have tidy : Tidy codec task trace outcome :=
    run.post (tidy_script policy codec task) fun _ _ => trivial
  have before (look moment : Moment Call World) (sessionId : Name) (record : StateRecord S)
      (pid : ℤ) (order : [look, moment].Sublist trace) (isLook : Look codec look sessionId record)
      (targets : task.Targets sessionId record) (isPid : record.pid = .int pid) :
      Kept pid look.world moment.world := by
    have lookMem : look ∈ trace := order.subset List.mem_cons_self
    have kept := kept_of_runs (orderly.noReuse look lookMem sessionId record pid isLook targets
      isPid) (spawnless_script policy codec task) run
    exact List.pairwise_iff_forall_sublist.mp kept.2 order
  have succeeds (failure : Failure S) (failed : outcome = .error failure) : False := by
    rcases tidy.fails failure failed with undecodable | refused | ⟨look, mem, rest⟩
    · exact orderly.decodable undecodable
    · rcases refused with ⟨moment, mem, pid, process, kills, present, unsignalable⟩
      rcases tidy.signals moment mem pid .sigterm kills
        with ⟨look, sessionId, record, order, isLook, targets, isPid⟩
      have earlier := before look moment sessionId record pid order isLook targets isPid process
        present
      have own := orderly.own look moment sessionId record pid .sigterm process order isLook
        targets isPid kills earlier
      rw [own.2.1] at unsignalable
      cases unsignalable
    · rcases rest with ⟨sessionId, record, isLook, targets, unusable⟩
      exact orderly.usable look mem sessionId record isLook targets unusable
  refine ⟨fun moment mem pid => tidy.signals moment mem pid .sigterm, ?_,
    fun failure failed => (succeeds failure failed).elim, ?_⟩
  · intro look moment sessionId record pid process order isLook targets isPid kills present
    have earlier := before look moment sessionId record pid order isLook targets isPid process
      present
    have own := orderly.own look moment sessionId record pid .sigterm process order isLook targets
      isPid kills earlier
    exact ⟨own.1, own.2.2⟩
  · intro look mem sessionId record isLook targets
    have names := orderly.named look mem sessionId record isLook targets
    cases outcome with
    | ok result => exact tidy.removed result rfl look mem sessionId record isLook targets names
    | error failure => exact (succeeds failure rfl).elim

/-- The record of the daemon with pid 71 while it is attached. -/
def attachedRecord : StateRecord Media.SessionState :=
  { detachedRecord with state := some .attached }

def attachedText : Content :=
  asciiBytes "\x7b\"session_id\": \"run\", \"pid\": 71, \"state\": \"attached\", " ++
    asciiBytes "\"endpoint\": \"bmc:5120\", \"image\": \"/a.iso\"\x7d"

/-- A host on which the daemon runs, with its record. -/
def attachedHost : World where
  files := append (stateFilePath "run".toList) attachedText OrderedDict.empty
  processes := fun pid => if pid = 71 then some ⟨4, true⟩ else none
  author := fun _ => 4
  openPath := fun _ => .ok ()
  forkAnswer := .unsupported

/-- A host on which the daemon has exited, with its record, and another process has its pid. -/
def reusedPid : World where
  files := append (stateFilePath "run".toList) detachedText OrderedDict.empty
  processes := fun pid => if pid = 71 then some ⟨9, true⟩ else none
  author := fun _ => 4
  openPath := fun _ => .ok ()
  forkAnswer := .unsupported

def detachRun : StopTask :=
  .stop (sampleParams "run") "run".toList

theorem loads_soleCodec {known record : StateRecord Media.SessionState} {text : Content}
    {world : World} {sessionId : Name}
    (found : loaded (soleCodec known text) world sessionId = .record record) : record = known := by
  unfold loaded load soleCodec at found
  split at found
  · cases found
  · dsimp only at found
    split at found
    · exact (Loaded.record.inj found).symm
    · cases found

/-- The daemon of the record is signalled. -/
theorem stopsOwn_attachedHost :
    StopsOwn mediaPolicy (soleCodec attachedRecord attachedText) detachRun
      (exec perform (detachRun.script mediaPolicy (soleCodec attachedRecord attachedText))
        attachedHost).1
      (exec perform (detachRun.script mediaPolicy (soleCodec attachedRecord attachedText))
        attachedHost).2.1 := by
  have kept : ∀ moment ∈ (exec perform
      (detachRun.script mediaPolicy (soleCodec attachedRecord attachedText)) attachedHost).1,
      moment.world.processes 71 = some ⟨4, true⟩ ∧ moment.world.author "run".toList = 4 := by
    decide
  refine stopsOwn_of_orderly mediaPolicy _ detachRun
    (exec_runs fun world => Eq.refl world) ⟨?_, ?_, fun _ _ _ _ _ _ => trivial, ?_, ?_⟩
  · rintro ⟨moment, mem, sessionId, reads, undecodable⟩
    unfold loaded load soleCodec at undecodable
    split at undecodable
    · cases undecodable
    · dsimp only at undecodable
      split at undecodable <;> cases undecodable
  · intro look mem sessionId record isLook targets
    rw [loads_soleCodec isLook.finds]
    rintro (other | ⟨number, isPid, beyond⟩)
    · cases other
    · cases isPid
      exact absurd beyond (by decide)
  · intro look moment sessionId record pid signal process order isLook targets isPid kills present
    have same : sessionId = "run".toList := targets
    have known := loads_soleCodec isLook.finds
    subst same known
    cases isPid
    have here := kept look (order.subset List.mem_cons_self)
    rw [here.1] at present
    cases present
    exact ⟨here.2.symm, rfl, rfl⟩
  · rintro look mem sessionId record pid isLook targets isPid world moved rfl process present
    exact present

/-- A detach of the terminal record signals the process that has taken the pid. -/
theorem not_stopsOwn_reusedPid :
    ¬ StopsOwn mediaPolicy (soleCodec detachedRecord detachedText) detachRun
      (exec perform (detachRun.script mediaPolicy (soleCodec detachedRecord detachedText))
        reusedPid).1
      (exec perform (detachRun.script mediaPolicy (soleCodec detachedRecord detachedText))
        reusedPid).2.1 := by
  intro stopsOwn
  have own := stopsOwn.own ⟨.readFile (stateFilePath "run".toList), reusedPid⟩
    ⟨.kill 71 .sigterm, reusedPid⟩ "run".toList detachedRecord 71 ⟨9, true⟩
    (by
      refine List.Sublist.cons_cons _ (List.Sublist.cons _ (List.Sublist.cons_cons _ ?_))
      exact List.nil_sublist _)
    ⟨rfl, by decide⟩ rfl rfl rfl rfl
  exact absurd own.1 (by decide)

end Asmb8Ikvm.Modules

import Asmb8Ikvm.Media.Daemon

/-!
# Idle accounting

The idle streaks of a record against the marks of the run. `stretches` reads a
history: the times of the idle polls since the last boundary, and the stretches
of polls that boundaries have ended. A record accounts for a history when its
idle fields say the same. The callbacks of the daemon keep the account, and a
failure leaves it as it is.

The history a record is judged by ends with the mark of the event that the record
was written for: there is one record for each idle poll, and it counts this poll.
-/

namespace Asmb8Ikvm.Media

open PyText Iusb

universe u

def Mark.isIdle : Mark → Bool
  | .idle _ => true
  | .boundary _ => false

/-- The times of the idle polls since the last boundary, and the stretches of at least one
idle poll that have ended, each with the time of its end. -/
structure Stretches where
  polls : List String := []
  ended : List (List String × String) := []

def Stretches.add (stretches : Stretches) : Mark → Stretches
  | .idle time => { stretches with polls := stretches.polls ++ [time] }
  | .boundary time =>
      if stretches.polls = [] then stretches
      else { polls := [], ended := stretches.ended ++ [(stretches.polls, time)] }

def stretches (history : List Mark) : Stretches :=
  history.foldl Stretches.add {}

/-- The streak of a stretch of idle polls; none when there is no poll in it. -/
def streakOf (interval : ℕ) (endedAt : Option String) : List String → Option IdleStreak
  | [] => none
  | first :: others =>
      some {
        startedAt := first
        polls := others.length + 1
        seconds := (others.length + 1) * interval
        endedAt }

/-- The idle fields of the record say what the history does. -/
structure Accounts (record : Record) (history : List Mark) : Prop where
  interval : record.idlePollIntervalSeconds = recvPollTimeout
  polls : record.idlePolls = history.countP Mark.isIdle
  current : record.currentIdleStreak =
    streakOf record.idlePollIntervalSeconds none (stretches history).polls
  last : record.lastIdleStreak = (stretches history).ended.getLast?.bind fun (polls, time) =>
    streakOf record.idlePollIntervalSeconds (some time) polls

/-- The part of a history up to each of its idle polls. -/
def polled (history : List Mark) : List (List Mark) :=
  history.inits.filter fun marks => marks.getLast?.any Mark.isIdle

/-- Where in the run a record has been written: before any mark, right behind the mark of
its own event, or at the end. -/
def Persisted.Placed (whole : List Mark) (written : Persisted) : Prop :=
  match written.site with
  | .claim | .connecting | .attached => written.history = []
  | .idle => written.history.getLast? = some (.idle written.record.updatedAt)
  | .request | .exit => written.history.getLast? = some (.boundary written.record.updatedAt)
  | .fail => written.history = whole

/-- The parts of the history that the records of idle polls have been written behind. -/
def Reports.idleHistories (reports : Reports) : List (List Mark) :=
  (reports.persisted.filter fun written => written.site = .idle).map Persisted.history

@[simp]
theorem polled_append (history : List Mark) (mark : Mark) :
    polled (history ++ [mark]) =
      polled history ++ if mark.isIdle then [history ++ [mark]] else [] := by
  cases mark <;> simp [polled, List.inits_append, Mark.isIdle]

@[simp]
theorem stretches_append (history : List Mark) (mark : Mark) :
    stretches (history ++ [mark]) = (stretches history).add mark := by
  simp [stretches]

theorem streakOf_append {interval : ℕ} {endedAt : Option String} (polls : List String)
    (time : String) :
    streakOf interval endedAt (polls ++ [time]) =
      some (match streakOf interval endedAt polls with
        | none => { startedAt := time, polls := 1, seconds := interval, endedAt }
        | some streak =>
            { streak with
              polls := streak.polls + 1
              seconds := (streak.polls + 1) * interval }) := by
  cases polls <;> simp [streakOf]

namespace Accounts

variable {record : Record} {history : List Mark}

/-- Fields that are not about idling do not matter. -/
theorem of_eq (accounts : Accounts record history) {other : Record}
    (polls : other.idlePolls = record.idlePolls)
    (interval : other.idlePollIntervalSeconds = record.idlePollIntervalSeconds)
    (current : other.currentIdleStreak = record.currentIdleStreak)
    (last : other.lastIdleStreak = record.lastIdleStreak) : Accounts other history := by
  refine ⟨?_, ?_, ?_, ?_⟩
  · rw [interval, accounts.interval]
  · rw [polls, accounts.polls]
  · rw [current, interval, accounts.current]
  · rw [last, interval, accounts.last]

theorem closeIdleStreak (accounts : Accounts record history) (now : String) :
    Accounts (closeIdleStreak now record) (history ++ [.boundary now]) := by
  have current := accounts.current
  unfold Media.closeIdleStreak
  cases polls : (stretches history).polls with
  | nil =>
      rw [polls, streakOf] at current
      rw [current]
      refine ⟨accounts.interval, ?_, ?_, ?_⟩
      · simp [accounts.polls, Mark.isIdle]
      · simp [Stretches.add, polls, streakOf, current]
      · simp [Stretches.add, polls, accounts.last]
  | cons first others =>
      rw [polls, streakOf] at current
      rw [current]
      refine ⟨accounts.interval, ?_, ?_, ?_⟩
      · simp [accounts.polls, Mark.isIdle]
      · simp [Stretches.add, polls, streakOf]
      · simp [Stretches.add, polls, streakOf]

theorem addIdlePoll (accounts : Accounts record history) (now : String) :
    Accounts (addIdlePoll now record) (history ++ [.idle now]) := by
  have current := accounts.current
  have interval := accounts.interval
  refine ⟨accounts.interval, ?_, ?_, ?_⟩
  · simp [Media.addIdlePoll, accounts.polls, Mark.isIdle]
  · rw [stretches_append, Stretches.add, streakOf_append]
    cases streak : record.currentIdleStreak with
    | none =>
        rw [streak, interval] at current
        simp [Media.addIdlePoll, streak, ← current, interval]
    | some streak' =>
        rw [streak, interval] at current
        simp [Media.addIdlePoll, streak, ← current, interval]
  · simp [Media.addIdlePoll, accounts.last, Stretches.add]

end Accounts

/-- Every record that has been written accounts for the marks up to then, and so does the
record of the daemon. -/
structure Reports.Accounted (reports : Reports) : Prop where
  state : Accounts reports.state reports.history
  written : ∀ record ∈ reports.persisted, Accounts record.record record.history
  earlier : ∀ record ∈ reports.persisted, record.history <+: reports.history

namespace Reports.Accounted

variable {world : World} {reports : Reports}

theorem persistAt (accounted : reports.Accounted) (site : Site) (totals : ℕ × ℕ) (now : String) :
    (reports.persistAt site totals now).Accounted := by
  have state : Accounts { reports.state with updatedAt := now } reports.history :=
    accounted.state.of_eq rfl rfl rfl rfl
  refine ⟨state, ?_, ?_⟩
  · intro record mem
    rcases List.mem_append.mp mem with earlier | last
    · exact accounted.written record earlier
    · cases List.mem_singleton.mp last
      exact state
  · intro record mem
    rcases List.mem_append.mp mem with earlier | last
    · exact accounted.earlier record earlier
    · cases List.mem_singleton.mp last
      exact List.prefix_refl _

theorem earlier_append (accounted : reports.Accounted) (mark : Mark) :
    ∀ record ∈ reports.persisted, record.history <+: reports.history ++ [mark] :=
  fun record mem => (accounted.earlier record mem).trans (List.prefix_append _ _)

theorem persist (accounted : reports.Accounted) (site : Site) (totals : ℕ × ℕ) :
    (reports.persist world site totals).Accounted := by
  have ticked : (reports.nowIso world).2.Accounted :=
    ⟨accounted.state, accounted.written, accounted.earlier⟩
  exact ticked.persistAt ..

theorem enter (accounted : reports.Accounted) (site : Site) (state : SessionState)
    (totals : ℕ × ℕ) : (reports.enter world site state totals).Accounted := by
  have entered : Accounted { reports with state := { reports.state with state } } :=
    ⟨accounted.state.of_eq rfl rfl rfl rfl, accounted.written, accounted.earlier⟩
  exact entered.persist ..

theorem failWith (accounted : reports.Accounted) (table : CharTable) (knownSecrets : List String)
    (totals : ℕ × ℕ) (exn : Exn) :
    (reports.failWith world table knownSecrets totals exn).Accounted := by
  have failed : ∀ message errorClass,
      (reports.fail world table knownSecrets totals message errorClass).Accounted := by
    intro message errorClass
    have failing : Accounted { reports with state := { reports.state with
        state := .error
        error := some (redact table message (knownSecrets.map some))
        errorClass := some errorClass } } :=
      ⟨accounted.state.of_eq rfl rfl rfl rfl, accounted.written, accounted.earlier⟩
    exact failing.persist ..
  unfold Reports.failWith
  split
  · exact failed _ _
  · exact failed _ _

end Reports.Accounted

/-- Before a failure every record stands where it belongs, and each idle poll has one. -/
structure Reports.Located (reports : Reports) : Prop where
  placed : ∀ written ∈ reports.persisted, ∀ whole, written.Placed whole
  polls : reports.idleHistories = polled reports.history

/-- Every record of a run stands where it belongs, that of a failure at the end, and each
idle poll has one. -/
structure Reports.InPlace (reports : Reports) : Prop where
  placed : ∀ written ∈ reports.persisted, written.Placed reports.history
  polls : reports.idleHistories = polled reports.history

theorem Reports.Located.inPlace {reports : Reports} (located : reports.Located) :
    reports.InPlace :=
  ⟨fun written mem => located.placed written mem _, located.polls⟩

namespace Reports.Located

variable {world : World} {reports : Reports}

theorem persistAt (located : reports.Located) {later : Reports}
    (site : Site) (totals : ℕ × ℕ) (now : String)
    (kept : later.persisted = reports.persisted)
    (placed : ∀ whole, Persisted.Placed whole
      { site, totals, record := { later.state with updatedAt := now }, history := later.history })
    (polls : polled later.history =
      polled reports.history ++ if site = .idle then [later.history] else []) :
    (later.persistAt site totals now).Located := by
  refine ⟨?_, ?_⟩
  · intro written mem
    rcases List.mem_append.mp mem with earlier | last
    · rw [kept] at earlier
      exact located.placed written earlier
    · cases List.mem_singleton.mp last
      exact placed
  · have soFar := located.polls
    unfold idleHistories at soFar ⊢
    by_cases idle : site = .idle <;>
      simp [Reports.persistAt, kept, List.filter_append, soFar, polls, idle]

theorem enter (located : reports.Located) (unmarked : reports.history = []) {site : Site}
    (early : site = .connecting ∨ site = .attached) (state : SessionState) (totals : ℕ × ℕ) :
    (reports.enter world site state totals).Located := by
  refine located.persistAt site totals _ rfl (fun _ => ?_) ?_
  · rcases early with rfl | rfl <;> exact unmarked
  · rcases early with rfl | rfl <;>
      simp

theorem failWith (located : reports.Located) (table : CharTable) (knownSecrets : List String)
    (totals : ℕ × ℕ) (exn : Exn) :
    (reports.failWith world table knownSecrets totals exn).InPlace := by
  have failed : ∃ record : Record,
      (reports.failWith world table knownSecrets totals exn).history = reports.history ∧
      (reports.failWith world table knownSecrets totals exn).persisted = reports.persisted ++
        [{ site := .fail, record, totals, history := reports.history }] := by
    unfold Reports.failWith
    cases exn <;> exact ⟨_, rfl, rfl⟩
  rcases failed with ⟨record, history, persisted⟩
  refine ⟨?_, ?_⟩
  · rw [history]
    intro written mem
    rw [persisted] at mem
    rcases List.mem_append.mp mem with earlier | last
    · exact located.placed written earlier _
    · rw [List.mem_singleton.mp last]
      rfl
  · rw [history, ← located.polls]
    simp [idleHistories, persisted]

end Reports.Located

variable {ρ : Type u}

/-- The kind of mark an event of the serve loop leaves. -/
def idleKind : Event → Option Bool
  | .idle _ => some true
  | .request _ => some false
  | .read _ | .handle _ | .raised _ => none

/-- The daemon keeps account of the trace of its serve loop. -/
structure Idling (trace : List Event) (daemon : Daemon ρ) : Prop where
  accounted : daemon.reports.Accounted
  located : daemon.reports.Located
  marks : daemon.reports.history.map Mark.isIdle = trace.filterMap idleKind

namespace Idling

variable {world : World} {trace : List Event} {daemon : Daemon ρ}

theorem log (idling : Idling trace daemon) {event : Event} (unmarked : idleKind event = none) :
    Idling (trace ++ [event]) daemon :=
  ⟨idling.accounted, idling.located, by simp [idling.marks, unmarked]⟩

theorem onIdle (idling : Idling trace daemon) (position : ℕ) :
    Idling (trace ++ [.idle position]) (daemon.onIdle world) := by
  refine ⟨?_, ?_, ?_⟩
  · have polled : Reports.Accounted
        { ((daemon.reports.nowIso world).2.mark (.idle (daemon.reports.nowIso world).1)) with
          state := addIdlePoll (daemon.reports.nowIso world).1 daemon.reports.state } :=
      ⟨idling.accounted.state.addIdlePoll _, idling.accounted.written,
        idling.accounted.earlier_append _⟩
    exact polled.persistAt ..
  · refine idling.located.persistAt .idle _ _ rfl (fun _ => ?_) ?_
    · exact List.getLast?_concat
    · simp [Reports.mark, Mark.isIdle]
  · simp [Daemon.onIdle, Reports.persistAt, Reports.mark, Reports.nowIso, idling.marks, idleKind,
      Mark.isIdle]

theorem onRequest (idling : Idling trace daemon) (req : Packet) :
    Idling (trace ++ [.request req]) (daemon.onRequest world req).2 := by
  have received : Reports.Accounted
      ({ daemon with reports := (daemon.reports.nowIso world).2 }.receive
        (daemon.reports.nowIso world).1).reports :=
    ⟨(idling.accounted.state.closeIdleStreak _).of_eq rfl rfl rfl rfl, idling.accounted.written,
      idling.accounted.earlier_append _⟩
  have unpolled : polled (daemon.reports.history ++
      [Mark.boundary (daemon.reports.nowIso world).1]) = polled daemon.reports.history := by
    simp [Mark.isIdle]
  have marks : (daemon.reports.history ++ [Mark.boundary (daemon.reports.nowIso world).1]).map
      Mark.isIdle = (trace ++ [Event.request req]).filterMap idleKind := by
    simp [idling.marks, idleKind, Mark.isIdle]
  rcases daemon.onRequest_cases world req with ⟨_, rfl, traceWrites, ⟨exn, -, outcome⟩ | outcome⟩
  · rw [outcome]
    exact ⟨received, ⟨idling.located.placed, idling.located.polls.trans unpolled.symm⟩, marks⟩
  · rw [outcome]
    refine ⟨?_, ?_, marks⟩
    · have stamped : Reports.Accounted
          { ({ daemon with reports := (daemon.reports.nowIso world).2 }.receive
              (daemon.reports.nowIso world).1).reports with
            state :=
              { ({ daemon with reports := (daemon.reports.nowIso world).2 }.receive
                  (daemon.reports.nowIso world).1).reports.state with
                lastRequestAt := some (daemon.reports.nowIso world).1 } } :=
        ⟨received.state.of_eq rfl rfl rfl rfl, received.written, received.earlier⟩
      exact stamped.persistAt ..
    · refine idling.located.persistAt .request _ _ rfl (fun _ => ?_) ?_
      · exact List.getLast?_concat
      · exact unpolled.trans (List.append_nil _).symm

variable [Reader ρ]

theorem handle (idling : Idling trace daemon) (req : Packet) :
    Idling (trace ++ [.handle req]) ((Daemon.callbacks world).handle req daemon).2 := by
  have logged : Idling (trace ++ [.handle req]) daemon := idling.log rfl
  exact ⟨logged.accounted, logged.located, logged.marks⟩

/-- The callbacks of the daemon keep the account. -/
theorem keeps (world : World) : (Daemon.callbacks world : Callbacks (Daemon ρ)).Keeps Idling where
  check idling := ⟨idling.accounted, idling.located, idling.marks⟩
  read _ idling := idling.log rfl
  idle position idling := idling.onIdle position
  request req idling := idling.onRequest req
  handle req idling := idling.handle req
  raised _ idling := idling.log rfl

end Idling

/-- The marks of a whole run: those of the serve loop, and a boundary when it returns. -/
def Served.marks (served : Served ρ) : List Bool :=
  served.trace.filterMap idleKind ++
    match served.result with
    | .ok _ => [false]
    | .error _ => []

theorem Daemon.finish_accounted {world : World} {daemon : Daemon ρ}
    (accounted : daemon.reports.Accounted) (outcome : ServeResult) :
    (daemon.finish world outcome).Accounted := by
  have closed (error : Option String) (stopReason : Option StopReason) : Reports.Accounted
      { ((daemon.reports.nowIso world).2.mark (.boundary (daemon.reports.nowIso world).1)) with
        state :=
          { closeIdleStreak (daemon.reports.nowIso world).1 daemon.reports.state with
            bytesRead := daemon.device.nBytes
            sectorsServed := daemon.device.nBlocks
            state := .detached
            error := error
            stopReason := stopReason } } :=
    ⟨(accounted.state.closeIdleStreak _).of_eq rfl rfl rfl rfl, accounted.written,
      accounted.earlier_append _⟩
  exact (closed _ _).persistAt ..

theorem Daemon.finish_located {world : World} {daemon : Daemon ρ}
    (located : daemon.reports.Located) (outcome : ServeResult) :
    (daemon.finish world outcome).Located := by
  refine located.persistAt .exit _ _ rfl (fun _ => ?_) ?_
  · exact List.getLast?_concat
  · simp [Reports.mark, Mark.isIdle]

section Runs

variable (world : World) (table : CharTable)

theorem history_failWith (knownSecrets : List String) (totals : ℕ × ℕ) (exn : Exn)
    (reports : Reports) :
    (reports.failWith world table knownSecrets totals exn).history = reports.history := by
  unfold Reports.failWith
  cases exn <;> rfl

variable [Reader ρ]

theorem serve_accounted (knownSecrets : List String) (session : Session)
    (device : CDROMDevice ρ) {reports : Reports} (accounted : reports.Accounted)
    (located : reports.Located) (unmarked : reports.history = []) :
    (serve world table knownSecrets session device reports).reports.Accounted ∧
      (serve world table knownSecrets session device reports).reports.InPlace ∧
      ∀ served ∈ (serve world table knownSecrets session device reports).served,
        (serve world table knownSecrets session device reports).reports.history.map
          Mark.isIdle = served.marks := by
  have start : Idling []
      ({ device, reports := reports.enter world .attached .attached device.totals } :
        Daemon ρ) :=
    ⟨accounted.enter .., located.enter unmarked (.inr rfl) .., by
      simp [Reports.enter, Reports.persist, Reports.persistAt, Reports.nowIso, unmarked]⟩
  have idling := (Idling.keeps world).serveForever session start
  unfold serve
  dsimp only
  generalize session.serveForever (Daemon.callbacks world)
    ({ device, reports := reports.enter world .attached .attached device.totals } :
      Daemon ρ) = outcome at idling
  rcases outcome with ⟨exn | outcome, final⟩
  · refine ⟨idling.accounted.failWith .., idling.located.failWith .., ?_⟩
    rintro _ ⟨⟩
    simp only [Daemon.conclude, history_failWith, idling.marks, Served.marks, List.append_nil]
  · refine ⟨Daemon.finish_accounted idling.accounted outcome,
      (Daemon.finish_located idling.located outcome).inPlace, ?_⟩
    rintro _ ⟨⟩
    simp [Daemon.conclude, Daemon.finish, Reports.persistAt, Reports.mark, Reports.nowIso,
      idling.marks, Served.marks, Mark.isIdle]

/-- In every run each record accounts for the idle polls and requests up to it, its own
included; each idle poll has a record behind it; and these polls and requests are those of
the serve loop. -/
theorem runDaemon_accounts (password : String) (startup : Startup ρ)
    (sessionId endpoint : String) (pid : ℤ) (image now : String) :
    (∀ written ∈ (runDaemon world table password startup
        (initialState sessionId endpoint pid image now)).reports.persisted,
      Accounts written.record written.history ∧
        written.history <+: (runDaemon world table password startup
          (initialState sessionId endpoint pid image now)).reports.history) ∧
    (runDaemon world table password startup
      (initialState sessionId endpoint pid image now)).reports.InPlace ∧
    ∀ served ∈ (runDaemon world table password startup
        (initialState sessionId endpoint pid image now)).served,
      (runDaemon world table password startup
        (initialState sessionId endpoint pid image now)).reports.history.map Mark.isIdle =
          served.marks := by
  have initial : Reports.Accounted { state := initialState sessionId endpoint pid image now } :=
    ⟨⟨rfl, rfl, rfl, rfl⟩, by simp, by simp⟩
  have claimed : (Reports.persist world .claim (0, 0)
      { state := initialState sessionId endpoint pid image now }).Accounted :=
    initial.persist ..
  have start : Reports.Located { state := initialState sessionId endpoint pid image now } :=
    ⟨by simp, rfl⟩
  have placed : (Reports.persist world .claim (0, 0)
      { state := initialState sessionId endpoint pid image now }).Located :=
    start.persistAt .claim _ _ rfl (fun _ => rfl) (List.append_nil _).symm
  have connecting : ((Reports.persist world .claim (0, 0)
      { state := initialState sessionId endpoint pid image now }).enter world .connecting
        .connecting (0, 0)).Located :=
    placed.enter rfl (.inl rfl) .connecting (0, 0)
  have accounted : ((Reports.persist world .claim (0, 0)
      { state := initialState sessionId endpoint pid image now }).enter world .connecting
        .connecting (0, 0)).Accounted :=
    claimed.enter .connecting .connecting (0, 0)
  unfold runDaemon
  dsimp only
  rcases attempt_cases world table password startup (Reports.persist world .claim (0, 0)
    { state := initialState sessionId endpoint pid image now }) with
    ⟨opened, knownSecrets, exn, run⟩ | ⟨opened, knownSecrets, exn, run⟩ |
      ⟨reader, token, session, -, -, -, run⟩
  · rw [run]
    have failed := @Reports.Accounted.failWith world _ claimed table knownSecrets (0, 0) exn
    exact ⟨fun record mem => ⟨failed.written record mem, failed.earlier record mem⟩,
      placed.failWith .., by simp⟩
  · rw [run]
    have failed := @Reports.Accounted.failWith world _ accounted table knownSecrets (0, 0) exn
    exact ⟨fun record mem => ⟨failed.written record mem, failed.earlier record mem⟩,
      connecting.failWith .., by simp⟩
  · rw [run]
    have served := serve_accounted world table [password, token] session (CDROMDevice.new reader)
      accounted connecting rfl
    exact ⟨fun record mem => ⟨served.1.written record mem, served.1.earlier record mem⟩,
      served.2⟩

end Runs

end Asmb8Ikvm.Media

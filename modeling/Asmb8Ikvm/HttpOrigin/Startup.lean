import Asmb8Ikvm.HttpOrigin.Daemon

/-!
# Runs of the daemon

What holds of every run of the main thread, whatever happens between its calls. It
persists in the order of the stages of `Persist`. Before it persists `serving`, its
self-test has come back with the content of the probe file. A run that ends has
closed its server, and the reason of the stop is the true one.
-/

namespace Asmb8Ikvm.HttpOrigin.Daemon

open Paths Interaction

universe w

variable {σ : Type w} {perform : (request : Call) → σ → request.Answer × σ}
  {others : σ → σ → Prop} {config : Config}

section Statements

/-- The change of the record that a call persists. -/
def Call.advance : Call → Option Advance
  | .persist advance => some advance
  | _ => none

/-- A call that neither persists nor looks at the clock. -/
def Call.Quiet (request : Call) : Prop :=
  request.advance = none ∧ request ≠ .monotonic

def advances (trace : List (Moment Call σ)) : List Advance :=
  trace.filterMap (·.request.advance)

/-- The trace persists in the order of the stages, from one on, up to the last one if the run
returns. -/
def Follows (stage : Stage) (trace : List (Moment Call σ)) (outcome : Except Failure Unit) : Prop :=
  ∃ reached, (advances trace).foldlM Stage.next stage = some reached ∧
    (outcome = .ok () → reached = .over) ∧ (outcome = .error .running → reached = .serving)

/-- The self-test of a server on a port has been passed: the file that `findProbeFile` picks has
been fetched from the server and its bytes are those read from the disk, or there is no file and
the server has answered so. -/
def Verified (perform : (request : Call) → σ → request.Answer × σ) (config : Config) (root : Path)
    (port : ℕ) (trace : List (Moment Call σ)) : Prop :=
  ∃ walked ∈ trace, ∃ visits, walked.request = .walk root ∧
    (perform (.walk root) walked.world).1 = (.ok visits : Except Raised (List Visit)) ∧
    match findProbeFile visits with
    | some relParts => ∃ read ∈ trace, ∃ fetched ∈ trace, ∃ content,
        read.request = .readBytes (root ++ relParts) ∧
        (perform (.readBytes (root ++ relParts)) read.world).1 =
          (.ok content : Except Raised Bytes) ∧
        fetched.request =
          .get (selfTestConnectHost config.bindAddress) port (selfTestTarget relParts) ∧
        (perform (.get (selfTestConnectHost config.bindAddress) port (selfTestTarget relParts))
          fetched.world).1 = (.ok (200, content) : Except Raised (ℕ × Bytes))
    | none => ∃ fetched ∈ trace, ∃ body,
        fetched.request =
          .get (selfTestConnectHost config.bindAddress) port selfTestEmptyRootProbePath ∧
        (perform (.get (selfTestConnectHost config.bindAddress) port selfTestEmptyRootProbePath)
          fetched.world).1 = (.ok (404, body) : Except Raised (ℕ × Bytes))

/-- Wherever the trace persists `serving`, what precedes it satisfies `P`; `before` precedes the
trace. -/
def Preceded (P : List (Moment Call σ) → Prop) (before trace : List (Moment Call σ)) : Prop :=
  ∀ front served after, trace = front ++ served :: after → served.request = .persist .serve →
    P (before ++ front)

/-- The server of the trace is bound to a port, and its self-test has been passed. -/
def SelfTested (perform : (request : Call) → σ → request.Answer × σ) (config : Config)
    (trace : List (Moment Call σ)) : Prop :=
  ∃ root port, (∃ resolved ∈ trace, resolved.request = .resolveRoot ∧
      (perform .resolveRoot resolved.world).1 = (.ok root : Except Raised Path)) ∧
    (∃ bound ∈ trace, bound.request = .bind ∧
      (perform .bind bound.world).1 = (.ok port : Except Raised ℕ)) ∧
    Verified perform config root port trace

end Statements

section Order

variable {stage next : Stage} {trace later : List (Moment Call σ)} {outcome : Except Failure Unit}

theorem Follows.persist {advance : Advance} {world : σ} (step : stage.next advance = some next)
    (follows : Follows next trace outcome) :
    Follows stage (⟨.persist advance, world⟩ :: trace) outcome := by
  rcases follows with ⟨reached, folds, ends, runs⟩
  refine ⟨reached, ?_, ends, runs⟩
  have split : advances (⟨.persist advance, world⟩ :: trace) = advance :: advances trace := rfl
  rw [split, List.foldlM_cons, step]
  exact folds

theorem Follows.quiet (silent : ∀ moment ∈ trace, moment.request.advance = none)
    (follows : Follows stage later outcome) : Follows stage (trace ++ later) outcome := by
  rcases follows with ⟨reached, folds, ends, runs⟩
  refine ⟨reached, ?_, ends, runs⟩
  have nothing : advances trace = [] := List.filterMap_eq_nil_iff.mpr silent
  rw [advances, List.filterMap_append, ← advances, ← advances, nothing, List.nil_append]
  exact folds

theorem Follows.skip {moment : Moment Call σ} (silent : moment.request.advance = none)
    (follows : Follows stage trace outcome) : Follows stage (moment :: trace) outcome :=
  Follows.quiet (List.forall_mem_singleton.mpr silent) follows

theorem follows_over : Follows .over ([] : List (Moment Call σ)) (.ok ()) :=
  ⟨.over, rfl, fun _ => rfl, nofun⟩

theorem follows_uncaught {raised : Raised} :
    Follows stage ([] : List (Moment Call σ)) (.error (.uncaught raised)) :=
  ⟨stage, rfl, nofun, nofun⟩

end Order

section Loop

/-- How the control loop ends, and what it has seen then. -/
structure Polls (perform : (request : Call) → σ → request.Answer × σ) (deadline : ℤ)
    (trace : List (Moment Call σ)) (outcome : Except Failure StopReason) : Prop where
  silent : ∀ moment ∈ trace, moment.request.advance = none
  failed : ∀ failure, outcome = .error failure → failure = .running
  signalled : outcome = .ok .signal → ∃ moment ∈ trace, moment.request = .stopFlag ∧
    (perform .stopFlag moment.world).1 = true
  expired : outcome = .ok .lifetimeExpired → ∃ moment ∈ trace, moment.request = .monotonic ∧
    deadline ≤ (perform .monotonic moment.world).1

theorem Polls.behind {deadline : ℤ} {before trace : List (Moment Call σ)}
    {outcome : Except Failure StopReason} (polls : Polls perform deadline trace outcome)
    (silent : ∀ moment ∈ before, moment.request.advance = none) :
    Polls perform deadline (before ++ trace) outcome where
  silent := List.forall_mem_append.mpr ⟨silent, polls.silent⟩
  failed := polls.failed
  signalled isSignal := by
    rcases polls.signalled isSignal with ⟨moment, mem, seen⟩
    exact ⟨moment, List.mem_append_right _ mem, seen⟩
  expired isExpired := by
    rcases polls.expired isExpired with ⟨moment, mem, seen⟩
    exact ⟨moment, List.mem_append_right _ mem, seen⟩

theorem controlLoop_succ (deadline : ℤ) (fuel : ℕ) :
    controlLoop deadline (fuel + 1) = .call .stopFlag fun (stop : Bool) =>
      if stop then .done .signal
      else .call .monotonic fun (now : ℤ) =>
        if deadline ≤ now then .done .lifetimeExpired
        else .call .sleep fun _ => controlLoop deadline fuel :=
  rfl

theorem ensures_controlLoop (deadline : ℤ) (fuel : ℕ) :
    Ensures perform (fun _ => True) (controlLoop deadline fuel) (Polls perform deadline) := by
  induction fuel with
  | zero => exact ⟨by simp, by rintro _ ⟨⟩; rfl, nofun, nofun⟩
  | succ fuel ih =>
      rw [controlLoop_succ]
      intro asked _
      cases stop : (perform .stopFlag asked).1 with
      | true =>
          exact ⟨by simp [Call.advance], nofun,
            fun _ => ⟨_, List.mem_singleton_self _, rfl, stop⟩, nofun⟩
      | false =>
          intro timed _
          dsimp only
          by_cases late : deadline ≤ (perform .monotonic timed).1
          · rw [if_pos late]
            exact ⟨by simp [Call.advance], nofun, nofun,
              fun _ => ⟨⟨.monotonic, timed⟩, by simp, rfl, late⟩⟩
          · rw [if_neg late]
            intro slept _
            refine ih.mono fun trace outcome polls => ?_
            exact polls.behind (show ∀ moment ∈ [(⟨.stopFlag, asked⟩ : Moment Call σ),
              ⟨.monotonic, timed⟩, ⟨.sleep, slept⟩], moment.request.advance = none by
                simp [Call.advance])

end Loop

section SelfTest

variable {root : Path} {port : ℕ}

/-- How a self-test ends; it says that it has passed only if it has. -/
structure Tests (perform : (request : Call) → σ → request.Answer × σ) (config : Config)
    (root : Path) (port : ℕ) (trace : List (Moment Call σ))
    (outcome : Except Failure (Except String String)) : Prop where
  quiet : ∀ moment ∈ trace, moment.request.Quiet
  failed : ∀ failure, outcome = .error failure → ∃ raised, failure = .uncaught raised
  verified : ∀ detail, outcome = .ok (.ok detail) → Verified perform config root port trace

theorem ensures_testFile {walked : σ} {visits : List Visit} {relParts : List Name}
    (walks : (perform (.walk root) walked).1 = (.ok visits : Except Raised (List Visit)))
    (found : findProbeFile visits = some relParts) :
    Ensures perform (fun _ => True)
      (testFile (selfTestConnectHost config.bindAddress) port root relParts)
      (fun trace => Tests perform config root port (⟨.walk root, walked⟩ :: trace)) := by
  intro read _
  cases reads : (perform (.readBytes (root ++ relParts)) read).1 with
  | error raised =>
      cases raised with
      | osError text => exact ⟨by simp [Call.Quiet, Call.advance], nofun, nofun⟩
      | httpException text =>
          exact ⟨by simp [Call.Quiet, Call.advance], by rintro _ ⟨⟩; exact ⟨_, rfl⟩, nofun⟩
      | other text =>
          exact ⟨by simp [Call.Quiet, Call.advance], by rintro _ ⟨⟩; exact ⟨_, rfl⟩, nofun⟩
  | ok content =>
      intro fetched _
      cases fetches : (perform (.get (selfTestConnectHost config.bindAddress) port
          (selfTestTarget relParts)) fetched).1 with
      | error raised =>
          cases raised with
          | osError text => exact ⟨by simp [Call.Quiet, Call.advance], nofun, nofun⟩
          | httpException text => exact ⟨by simp [Call.Quiet, Call.advance], nofun, nofun⟩
          | other text =>
              exact ⟨by simp [Call.Quiet, Call.advance], by rintro _ ⟨⟩; exact ⟨_, rfl⟩, nofun⟩
      | ok response =>
          rcases response with ⟨status, body⟩
          dsimp only [Prog.bind]
          split_ifs with wrongStatus wrongBody
          · exact ⟨by simp [Call.Quiet, Call.advance], nofun, nofun⟩
          · exact ⟨by simp [Call.Quiet, Call.advance], nofun, nofun⟩
          · rw [not_not] at wrongStatus wrongBody
            subst wrongStatus wrongBody
            refine ⟨by simp [Call.Quiet, Call.advance], nofun, fun _ _ => ?_⟩
            refine ⟨⟨.walk root, walked⟩, by simp, visits, rfl, walks, ?_⟩
            rw [found]
            exact ⟨⟨.readBytes (root ++ relParts), read⟩, by simp, ⟨.get _ _ _, fetched⟩, by simp,
              body, rfl, reads, rfl, fetches⟩

theorem ensures_testEmpty {walked : σ} {visits : List Visit}
    (walks : (perform (.walk root) walked).1 = (.ok visits : Except Raised (List Visit)))
    (found : findProbeFile visits = none) :
    Ensures perform (fun _ => True) (testEmpty (selfTestConnectHost config.bindAddress) port)
      (fun trace => Tests perform config root port (⟨.walk root, walked⟩ :: trace)) := by
  intro fetched _
  cases fetches : (perform (.get (selfTestConnectHost config.bindAddress) port
      selfTestEmptyRootProbePath) fetched).1 with
  | error raised =>
      cases raised with
      | osError text => exact ⟨by simp [Call.Quiet, Call.advance], nofun, nofun⟩
      | httpException text => exact ⟨by simp [Call.Quiet, Call.advance], nofun, nofun⟩
      | other text =>
          exact ⟨by simp [Call.Quiet, Call.advance], by rintro _ ⟨⟩; exact ⟨_, rfl⟩, nofun⟩
  | ok response =>
      rcases response with ⟨status, body⟩
      dsimp only [Prog.bind]
      split_ifs with wrongStatus
      · exact ⟨by simp [Call.Quiet, Call.advance], nofun, nofun⟩
      · rw [not_not] at wrongStatus
        subst wrongStatus
        refine ⟨by simp [Call.Quiet, Call.advance], nofun, fun _ _ => ?_⟩
        refine ⟨⟨.walk root, walked⟩, by simp, visits, rfl, walks, ?_⟩
        rw [found]
        exact ⟨⟨.get _ _ _, fetched⟩, by simp, body, rfl, fetches⟩

theorem ensures_runSelfTest :
    Ensures perform (fun _ => True) (runSelfTest config port root)
      (Tests perform config root port) := by
  intro walked _
  dsimp only [Prog.bind]
  rcases walks : (perform (.walk root) walked).1 with raised | visits
  · exact ⟨by simp [Call.Quiet, Call.advance], by rintro _ ⟨⟩; exact ⟨_, rfl⟩, nofun⟩
  · dsimp only
    cases found : findProbeFile visits with
    | some relParts => exact ensures_testFile walks found
    | none => exact ensures_testEmpty walks found

end SelfTest

section Main

variable {root : Path} {port : ℕ}

/-- What the main thread has seen when it stops for a reason: the flag, or that the lifetime
has passed since it looked at the clock first. -/
def Reason (perform : (request : Call) → σ → request.Answer × σ) (config : Config)
    (trace : List (Moment Call σ)) : StopReason → Prop
  | .signal => ∃ polled ∈ trace, polled.request = .stopFlag ∧
      (perform .stopFlag polled.world).1 = true
  | .lifetimeExpired => ∃ front begun after, trace = front ++ begun :: after ∧
      (∀ moment ∈ front, moment.request ≠ .monotonic) ∧ begun.request = .monotonic ∧
      ∃ late ∈ after, late.request = .monotonic ∧ (perform .monotonic begun.world).1 +
        config.lifetimeSeconds * 1000 ≤ (perform .monotonic late.world).1

/-- What a run of the main thread, or the rest of one, comes to. A stop that it persists has its
reason. -/
structure Accounts (perform : (request : Call) → σ → request.Answer × σ) (config : Config)
    (stage : Stage) (trace : List (Moment Call σ)) (outcome : Except Failure Unit) : Prop where
  follows : Follows stage trace outcome
  closes : outcome = .ok () → ∃ moment ∈ trace, moment.request = .serverClose
  reasons : ∀ reason, .stop reason ∈ advances trace → Reason perform config trace reason

variable {trace later : List (Moment Call σ)} {outcome : Except Failure Unit} {stage next : Stage}

theorem Reason.behind {reason : StopReason} (holds : Reason perform config trace reason)
    {moment : Moment Call σ} (untimed : moment.request ≠ .monotonic) :
    Reason perform config (moment :: trace) reason := by
  cases reason with
  | signal =>
      rcases holds with ⟨polled, mem, seen⟩
      exact ⟨polled, List.mem_cons_of_mem _ mem, seen⟩
  | lifetimeExpired =>
      rcases holds with ⟨front, begun, after, rfl, first, seen⟩
      exact ⟨moment :: front, begun, after, rfl, List.forall_mem_cons.mpr ⟨untimed, first⟩, seen⟩

theorem Accounts.persist {advance : Advance} {world : σ}
    (accounts : Accounts perform config next trace outcome)
    (step : stage.next advance = some next) (noStop : ∀ reason, advance ≠ .stop reason) :
    Accounts perform config stage (⟨.persist advance, world⟩ :: trace) outcome where
  follows := accounts.follows.persist step
  closes ends := by
    rcases accounts.closes ends with ⟨moment, mem, closes⟩
    exact ⟨moment, List.mem_cons_of_mem _ mem, closes⟩
  reasons reason mem := by
    rcases List.mem_cons.mp mem with rfl | mem
    · exact absurd rfl (noStop reason)
    · exact (accounts.reasons reason mem).behind nofun

theorem Accounts.skip {moment : Moment Call σ}
    (accounts : Accounts perform config stage trace outcome) (quiet : moment.request.Quiet) :
    Accounts perform config stage (moment :: trace) outcome where
  follows := accounts.follows.skip quiet.1
  closes ends := by
    rcases accounts.closes ends with ⟨moment, mem, closes⟩
    exact ⟨moment, List.mem_cons_of_mem _ mem, closes⟩
  reasons reason mem := by
    have same : advances (moment :: trace) = advances trace := List.filterMap_cons_none quiet.1
    rw [same] at mem
    exact (accounts.reasons reason mem).behind quiet.2

theorem Accounts.quiet {before : List (Moment Call σ)}
    (accounts : Accounts perform config stage trace outcome)
    (quiet : ∀ moment ∈ before, moment.request.Quiet) :
    Accounts perform config stage (before ++ trace) outcome := by
  induction before with
  | nil => exact accounts
  | cons moment before ih =>
      rw [List.forall_mem_cons] at quiet
      exact (ih quiet.2).skip quiet.1

/-- A run that fails with nothing persisted. -/
theorem accounts_failed {failure : Failure} (isServing : failure = .running → stage = .serving)
    (silent : ∀ moment ∈ trace, moment.request.advance = none) :
    Accounts perform config stage trace (.error failure) where
  follows := by
    have ends : Follows stage ([] : List (Moment Call σ)) (.error failure) :=
      ⟨stage, rfl, nofun, fun isRunning => isServing (Except.error.inj isRunning)⟩
    have follows := ends.quiet silent
    rwa [List.append_nil] at follows
  closes := nofun
  reasons reason mem := by
    rw [advances, List.filterMap_eq_nil_iff.mpr silent] at mem
    cases mem

/-- A run of a server that has been stopped. -/
theorem accounts_served {served begun stopping closing joining stopped : σ} {reason : StopReason}
    {looped : List (Moment Call σ)}
    (polls : Polls perform ((perform .monotonic begun).1 + config.lifetimeSeconds * 1000) looped
      (.ok reason)) :
    Accounts perform config .bound
      (⟨.persist .serve, served⟩ :: ⟨.monotonic, begun⟩ :: (looped ++
        [⟨.shutdown, stopping⟩, ⟨.serverClose, closing⟩, ⟨.joinThread, joining⟩,
          ⟨.persist (.stop reason), stopped⟩])) (.ok ()) where
  follows := by
    have ends : Follows .serving [(⟨.persist (.stop reason), stopped⟩ : Moment Call σ)] (.ok ()) :=
      follows_over.persist rfl
    exact ((((ends.skip rfl).skip rfl).skip rfl).quiet polls.silent |>.skip rfl).persist rfl
  closes _ := ⟨⟨.serverClose, closing⟩, by simp, rfl⟩
  reasons reason' mem := by
    have nothing : advances looped = [] := List.filterMap_eq_nil_iff.mpr polls.silent
    have split : advances (⟨.persist .serve, served⟩ :: ⟨.monotonic, begun⟩ :: (looped ++
        [⟨.shutdown, stopping⟩, ⟨.serverClose, closing⟩, ⟨.joinThread, joining⟩,
          ⟨.persist (.stop reason), stopped⟩])) =
        .serve :: (advances looped ++ [.stop reason]) := by
      simp [advances, Call.advance]
    rw [split, nothing] at mem
    obtain rfl : reason' = reason := by simpa using mem
    cases reason' with
    | signal =>
        rcases polls.signalled rfl with ⟨polled, mem, seen⟩
        exact ⟨polled, by simp [mem], seen⟩
    | lifetimeExpired =>
        rcases polls.expired rfl with ⟨late, mem, isLate, seen⟩
        exact ⟨[⟨.persist .serve, served⟩], ⟨.monotonic, begun⟩, _, rfl, by simp, rfl, late,
          by simp [mem], isLate, seen⟩

theorem serve_eq (fuel : ℕ) : serve config fuel =
    .call (.persist .serve) fun _ => .call .monotonic fun (now : ℤ) =>
      controlLoop (now + config.lifetimeSeconds * 1000) fuel >>= fun reason =>
        .call .shutdown fun (shut : Except Raised Unit) =>
          match shut with
          | .error raised => .fail (.uncaught raised)
          | .ok () => .call .serverClose fun (closed : Except Raised Unit) =>
              match closed with
              | .error raised => .fail (.uncaught raised)
              | .ok () => .call .joinThread fun _ => .call (.persist (.stop reason)) .done :=
  rfl

theorem ensures_serve (fuel : ℕ) : Ensures perform (fun _ => True) (serve config fuel)
    (Accounts perform config .bound) := by
  rw [serve_eq]
  intro served _ begun _
  refine (ensures_controlLoop _ fuel).bind ?_ ?_
  · rintro trace failure ⟨silent, -, -, -⟩
    have looped : Accounts perform config .serving (⟨.monotonic, begun⟩ :: trace)
        (.error failure) :=
      accounts_failed (fun _ => rfl) (List.forall_mem_cons.mpr ⟨rfl, silent⟩)
    exact looped.persist rfl nofun
  · rintro looped reason polls stopping _
    have uncaught (ending : List (Moment Call σ)) (raised : Raised)
        (rest : ∀ moment ∈ ending, moment.request.advance = none) :
        Accounts perform config .bound
          (⟨.persist .serve, served⟩ :: ⟨.monotonic, begun⟩ :: (looped ++ ending))
          (.error (.uncaught raised)) := by
      have failed : Accounts perform config .serving (⟨.monotonic, begun⟩ :: (looped ++ ending))
          (.error (.uncaught raised)) :=
        accounts_failed nofun (List.forall_mem_cons.mpr
          ⟨rfl, List.forall_mem_append.mpr ⟨polls.silent, rest⟩⟩)
      exact failed.persist rfl nofun
    rcases (perform .shutdown stopping).1 with raised | shut
    · exact uncaught [⟨.shutdown, stopping⟩] raised (by simp [Call.advance])
    · intro closing _
      rcases (perform .serverClose closing).1 with raised | closed
      · exact uncaught [⟨.shutdown, stopping⟩, ⟨.serverClose, closing⟩] raised
          (by simp [Call.advance])
      · intro joining _ stopped _
        exact accounts_served polls

/-- The run of a daemon whose self-test has failed. -/
theorem accounts_failedTest {message : String} {errorClass : ErrorClass} {closing failed : σ} :
    Accounts perform config .bound
      [⟨.serverClose, closing⟩, ⟨.persist (.fail message errorClass), failed⟩] (.ok ()) where
  follows := (follows_over.persist rfl).skip rfl
  closes _ := ⟨⟨.serverClose, closing⟩, by simp, rfl⟩
  reasons reason mem := by simp [advances, Call.advance] at mem

theorem listen_eq (fuel : ℕ) : listen config fuel root port =
    .call (.persist (.bind port (formatBoundUrl config.bindAddress port))) fun _ =>
      .call .startThread fun (begun : Except Raised Unit) =>
        match begun with
        | .error raised => .fail (.uncaught raised)
        | .ok () => runSelfTest config port root >>= fun tested =>
            match tested with
            | .ok _ => serve config fuel
            | .error detail => .call .serverClose fun (closed : Except Raised Unit) =>
                match closed with
                | .ok () | .error (.osError _) =>
                    .call (.persist (.fail (redact config.table detail []) .connection)) .done
                | .error raised => .fail (.uncaught raised) :=
  rfl

theorem Tests.silent {tested : List (Moment Call σ)}
    {result : Except Failure (Except String String)}
    (tests : Tests perform config root port tested result) :
    ∀ moment ∈ tested, moment.request.advance = none :=
  fun moment mem => (tests.quiet moment mem).1

theorem ensures_listen (fuel : ℕ) : Ensures perform (fun _ => True) (listen config fuel root port)
    (Accounts perform config .claimed) := by
  rw [listen_eq]
  intro bound _ started _
  have isQuiet : Call.startThread.Quiet := ⟨rfl, nofun⟩
  rcases (perform .startThread started).1 with raised | begun
  · have failed : Accounts perform config .bound [(⟨.startThread, started⟩ : Moment Call σ)]
        (.error (.uncaught raised)) := accounts_failed nofun (by simp [Call.advance])
    exact failed.persist rfl nofun
  refine Ensures.bind ensures_runSelfTest ?_ ?_
  · rintro tested failure tests
    rcases tests.failed failure rfl with ⟨raised, rfl⟩
    have failed : Accounts perform config .bound tested (.error (.uncaught raised)) :=
      accounts_failed nofun tests.silent
    exact (failed.skip isQuiet).persist rfl nofun
  · rintro tested (detail | detail) tests
    · intro closing _
      have uncaught (raised : Raised) : Accounts perform config .bound
          (tested ++ [(⟨.serverClose, closing⟩ : Moment Call σ)]) (.error (.uncaught raised)) :=
        accounts_failed nofun (List.forall_mem_append.mpr ⟨tests.silent, by simp [Call.advance]⟩)
      rcases (perform .serverClose closing).1 with raised | closed
      · cases raised with
        | osError text =>
            intro failed _
            exact ((accounts_failedTest.quiet tests.quiet).skip isQuiet).persist rfl nofun
        | httpException text => exact ((uncaught _).skip isQuiet).persist rfl nofun
        | other text => exact ((uncaught _).skip isQuiet).persist rfl nofun
      · intro failed _
        exact ((accounts_failedTest.quiet tests.quiet).skip isQuiet).persist rfl nofun
    · refine (ensures_serve fuel).mono fun trace outcome accounts => ?_
      exact ((accounts.quiet tests.quiet).skip isQuiet).persist rfl nofun

end Main

section Verification

variable {root : Path} {port : ℕ} {before trace later : List (Moment Call σ)}

theorem Verified.mono (verified : Verified perform config root port before)
    (subset : before ⊆ trace) : Verified perform config root port trace := by
  rcases verified with ⟨walked, mem, visits, isWalk, walks, tested⟩
  refine ⟨walked, subset mem, visits, isWalk, walks, ?_⟩
  cases found : findProbeFile visits with
  | some relParts =>
      rw [found] at tested
      rcases tested with ⟨read, readMem, fetched, fetchedMem, rest⟩
      exact ⟨read, subset readMem, fetched, subset fetchedMem, rest⟩
  | none =>
      rw [found] at tested
      rcases tested with ⟨fetched, fetchedMem, rest⟩
      exact ⟨fetched, subset fetchedMem, rest⟩

variable {P : List (Moment Call σ) → Prop}

theorem preceded_of_noServe (noServe : ∀ moment ∈ trace, moment.request ≠ .persist .serve) :
    Preceded P before trace := by
  intro front served after split isServe
  exact absurd isServe (noServe served (by simp [split]))

theorem Preceded.append (noServe : ∀ moment ∈ trace, moment.request ≠ .persist .serve)
    (preceded : Preceded P (before ++ trace) later) : Preceded P before (trace ++ later) := by
  induction trace generalizing before with
  | nil => rwa [List.append_nil] at preceded
  | cons moment trace ih =>
      rw [List.forall_mem_cons] at noServe
      have rest : Preceded P (before ++ [moment]) (trace ++ later) :=
        ih noServe.2 (by rwa [List.append_assoc])
      rintro (_ | ⟨first, front⟩) served after split isServe
      · cases split
        exact absurd isServe noServe.1
      · rw [List.cons_append, List.cons_append, List.cons.injEq] at split
        rcases split with ⟨rfl, split⟩
        have holds := rest front served after split isServe
        rwa [List.append_assoc] at holds

/-- The server is only said to serve behind a self-test that has been passed. -/
theorem ensures_preceded (fuel : ℕ) : Ensures perform (fun _ => True)
    (listen config fuel root port) fun trace _ =>
      Preceded (Verified perform config root port) [] trace := by
  rw [listen_eq]
  intro bound _ started _
  have noServe {tested : List (Moment Call σ)}
      (silent : ∀ moment ∈ tested, moment.request.advance = none) :
      ∀ moment ∈ ⟨.persist (.bind port (formatBoundUrl config.bindAddress port)), bound⟩ ::
        ⟨.startThread, started⟩ :: tested, moment.request ≠ .persist .serve := by
    refine List.forall_mem_cons.mpr ⟨nofun, List.forall_mem_cons.mpr ⟨nofun, ?_⟩⟩
    intro moment mem isServe
    have isSilent := silent moment mem
    rw [isServe] at isSilent
    cases isSilent
  rcases (perform .startThread started).1 with raised | begun
  · exact preceded_of_noServe (by simp)
  refine Ensures.bind ensures_runSelfTest ?_ ?_
  · rintro tested failure tests
    exact preceded_of_noServe (noServe tests.silent)
  · rintro tested (detail | detail) tests
    · intro closing _
      rcases (perform .serverClose closing).1 with raised | closed
      · cases raised with
        | osError text =>
            exact fun failed _ => (preceded_of_noServe (by simp)).append (noServe tests.silent)
        | httpException text =>
            exact (preceded_of_noServe (by simp)).append (noServe tests.silent)
        | other text => exact (preceded_of_noServe (by simp)).append (noServe tests.silent)
      · exact fun failed _ => (preceded_of_noServe (by simp)).append (noServe tests.silent)
    · refine (ensures_serve fuel).mono fun trace outcome _ => ?_
      refine Preceded.append (noServe tests.silent) fun front _ _ _ _ => ?_
      exact (tests.verified detail rfl).mono fun moment mem => by simp [mem]

end Verification

section Results

variable {fuel : ℕ} {trace : List (Moment Call σ)} {outcome : Except Failure Unit} {world final : σ}

theorem runDaemon_eq (fuel : ℕ) : runDaemon config fuel =
    .call (.persist .claim) fun _ => .call .resolveRoot fun (resolved : Except Raised Path) =>
      match resolved with
      | .error (.osError text) => .call (.persist (.fail (redact config.table
          ("invalid root " ++ config.repr config.root ++ ": " ++ text) []) .protocol)) .done
      | .error raised => .fail (.uncaught raised)
      | .ok root => .call .bind fun (bound : Except Raised ℕ) =>
          match bound with
          | .error (.osError text) => .call (.persist (.fail (redact config.table
              ("failed to bind " ++ config.bindAddress ++ ":" ++ toString config.port ++ ": " ++
                text) []) .connection)) .done
          | .error raised => .fail (.uncaught raised)
          | .ok port => listen config fuel root port :=
  rfl

/-- A run up to the failure to set the server up. -/
theorem follows_failed {message : String} {errorClass : ErrorClass} {failed : σ} :
    Follows .claimed [(⟨.persist (.fail message errorClass), failed⟩ : Moment Call σ)] (.ok ()) :=
  follows_over.persist rfl

/-- The main thread persists in the order of the stages, and gives true reasons; a run that
returns after it was bound to a port has closed the server. -/
structure DaemonAccounts (perform : (request : Call) → σ → request.Answer × σ) (config : Config)
    (trace : List (Moment Call σ)) (outcome : Except Failure Unit) : Prop where
  follows : Follows .start trace outcome
  closes : outcome = .ok () → ∀ bound ∈ trace, bound.request = .bind →
    (∃ port, (perform .bind bound.world).1 = (.ok port : Except Raised ℕ)) →
      ∃ moment ∈ trace, moment.request = .serverClose
  reasons : ∀ reason, .stop reason ∈ advances trace → Reason perform config trace reason

theorem ensures_runDaemon (fuel : ℕ) :
    Ensures perform (fun _ => True) (runDaemon config fuel) (DaemonAccounts perform config) := by
  rw [runDaemon_eq]
  intro claimed _ resolved _
  rcases resolves : (perform .resolveRoot resolved).1 with raised | root
  · cases raised with
    | osError text =>
        intro failed _
        exact ⟨(follows_failed.skip rfl).persist rfl, by simp, by simp [advances, Call.advance]⟩
    | httpException text =>
        exact ⟨(follows_uncaught.skip rfl).persist rfl, nofun, by simp [advances, Call.advance]⟩
    | other text =>
        exact ⟨(follows_uncaught.skip rfl).persist rfl, nofun, by simp [advances, Call.advance]⟩
  · intro bound _
    rcases binds : (perform .bind bound).1 with raised | port
    · cases raised with
      | osError text =>
          intro failed _
          refine ⟨((follows_failed.skip rfl).skip rfl).persist rfl, ?_, by
            simp [advances, Call.advance]⟩
          rintro - moment mem isBind ⟨port, isBound⟩
          simp only [List.mem_cons, List.not_mem_nil, or_false] at mem
          rcases mem with rfl | rfl | rfl | rfl
          · cases isBind
          · cases isBind
          · rw [binds] at isBound
            cases isBound
          · cases isBind
      | httpException text =>
          exact ⟨((follows_uncaught.skip rfl).skip rfl).persist rfl, nofun, by
            simp [advances, Call.advance]⟩
      | other text =>
          exact ⟨((follows_uncaught.skip rfl).skip rfl).persist rfl, nofun, by
            simp [advances, Call.advance]⟩
    · refine (ensures_listen fuel).mono fun trace outcome accounts => ?_
      have isBind : Call.bind.Quiet := ⟨rfl, nofun⟩
      have isResolve : Call.resolveRoot.Quiet := ⟨rfl, nofun⟩
      have whole : Accounts perform config .start (⟨.persist .claim, claimed⟩ ::
          ⟨.resolveRoot, resolved⟩ :: ⟨.bind, bound⟩ :: trace) outcome :=
        ((accounts.skip isBind).skip isResolve).persist rfl nofun
      exact ⟨whole.follows, fun ends _ _ _ _ => whole.closes ends, whole.reasons⟩

theorem ensures_selfTested (fuel : ℕ) : Ensures perform (fun _ => True)
    (runDaemon config fuel) fun trace _ => Preceded (SelfTested perform config) [] trace := by
  rw [runDaemon_eq]
  intro claimed _ resolved _
  rcases resolves : (perform .resolveRoot resolved).1 with raised | root
  · cases raised with
    | osError text => exact fun failed _ => preceded_of_noServe (by simp)
    | httpException text => exact preceded_of_noServe (by simp)
    | other text => exact preceded_of_noServe (by simp)
  · intro bound _
    rcases binds : (perform .bind bound).1 with raised | port
    · cases raised with
      | osError text => exact fun failed _ => preceded_of_noServe (by simp)
      | httpException text => exact preceded_of_noServe (by simp)
      | other text => exact preceded_of_noServe (by simp)
    · refine (ensures_preceded fuel).mono fun trace outcome preceded => ?_
      have noServe : ∀ moment ∈ [(⟨.persist .claim, claimed⟩ : Moment Call σ),
          ⟨.resolveRoot, resolved⟩, ⟨.bind, bound⟩], moment.request ≠ .persist .serve := by
        simp
      refine Preceded.append noServe fun front served after split isServe => ?_
      refine ⟨root, port, ⟨⟨.resolveRoot, resolved⟩, by simp, rfl, resolves⟩,
        ⟨⟨.bind, bound⟩, by simp, rfl, binds⟩, ?_⟩
      exact (preceded front served after split isServe).mono (List.subset_append_right _ _)

/-- Whatever happens between the calls of the main thread, its run accounts for what it
persists. -/
theorem daemon_accounts {others : σ → σ → Prop}
    (run : Runs perform others (runDaemon config fuel) world trace outcome final) :
    DaemonAccounts perform config trace outcome :=
  run.post (ensures_runDaemon fuel) fun _ _ => trivial

/-- Whatever happens between the calls of the main thread, the record only says `serving` when the
self-test of the server has been passed. -/
theorem serving_verified {others : σ → σ → Prop}
    (run : Runs perform others (runDaemon config fuel) world trace outcome final) :
    Preceded (SelfTested perform config) [] trace :=
  run.post (ensures_selfTested fuel) fun _ _ => trivial

end Results

section Sample

/-- A host with one file, and a server that serves it. -/
def sampleAnswers : (request : Call) → Unit → request.Answer × Unit
  | .persist _, _ => ((), ())
  | .resolveRoot, _ => (.ok ["srv".toList], ())
  | .bind, _ => (.ok 8000, ())
  | .startThread, _ => (.ok (), ())
  | .walk _, _ => (.ok [⟨[], [("image".toList, true)]⟩], ())
  | .readBytes _, _ => (.ok [1, 2, 3], ())
  | .get _ _ _, _ => (.ok (200, [1, 2, 3]), ())
  | .stopFlag, _ => (false, ())
  | .monotonic, _ => (5, ())
  | .sleep, _ => ((), ())
  | .shutdown, _ => (.ok (), ())
  | .serverClose, _ => (.ok (), ())
  | .joinThread, _ => ((), ())

/-- A configuration that serves for no time. -/
def sampleConfig : Config where
  root := "/srv"
  bindAddress := "127.0.0.1"
  port := 0
  lifetimeSeconds := 0
  repr root := root
  table := PyText.asciiTable

theorem sample_runs : Runs sampleAnswers (fun _ _ => True) (runDaemon sampleConfig 1) ()
    (exec sampleAnswers (runDaemon sampleConfig 1) ()).1
    (exec sampleAnswers (runDaemon sampleConfig 1) ()).2.1
    (exec sampleAnswers (runDaemon sampleConfig 1) ()).2.2 :=
  exec_runs fun _ => trivial

theorem daemon_accounts_once :
    (exec sampleAnswers (runDaemon sampleConfig 1) ()).2.1 = .ok () ∧
      DaemonAccounts sampleAnswers sampleConfig
        (exec sampleAnswers (runDaemon sampleConfig 1) ()).1
        (exec sampleAnswers (runDaemon sampleConfig 1) ()).2.1 :=
  ⟨rfl, daemon_accounts sample_runs⟩

theorem serving_verified_once :
    Preceded (SelfTested sampleAnswers sampleConfig) []
      (exec sampleAnswers (runDaemon sampleConfig 1) ()).1 :=
  serving_verified sample_runs

end Sample

end Asmb8Ikvm.HttpOrigin.Daemon

import Asmb8Ikvm.Asp.Session
import Asmb8Ikvm.Lib.Numerals

/-!
# Sampling POST codes

The reads of `asmb8_postcode`: one reading of `getpostcode.asp`, and the loop
that takes further readings until the next one would come too late. The loop has
no counter. It ends because sleeping takes the time it is asked to take, and the
number of its polls is bounded for the same reason.

The client and the clock are given together, since reading and sleeping are what
makes time pass. The clock counts whole ticks in the unit of the options. What is
proved about the polls is proved about the calls the client has received: the loop
is run next to a second one on the same client that keeps a list of its calls.
-/

namespace Asmb8Ikvm.PostCode

open Asp

/-- `_ENDPOINT`. -/
def endpointName : String := "getpostcode"

def minPollIntervalSeconds : ℤ := 2

def maxPollIntervalSeconds : ℤ := 300

def minMaxDurationSeconds : ℤ := 1

def maxMaxDurationSeconds : ℤ := 900

/-- `validate_sampling_bounds`; the text is the error message. -/
def validateSamplingBounds (pollIntervalSeconds maxDurationSeconds : ℤ) : Option String :=
  if ¬ (minPollIntervalSeconds ≤ pollIntervalSeconds ∧
      pollIntervalSeconds ≤ maxPollIntervalSeconds) then
    some ("poll_interval_seconds must be between " ++ toString minPollIntervalSeconds ++ " and " ++
      toString maxPollIntervalSeconds ++ " seconds inclusive; got " ++
      toString pollIntervalSeconds)
  else if ¬ (minMaxDurationSeconds ≤ maxDurationSeconds ∧
      maxDurationSeconds ≤ maxMaxDurationSeconds) then
    some ("max_duration_seconds must be between " ++ toString minMaxDurationSeconds ++ " and " ++
      toString maxMaxDurationSeconds ++ " seconds inclusive; got " ++ toString maxDurationSeconds)
  else none

theorem pollInterval_pos_of_accepted {pollIntervalSeconds maxDurationSeconds : ℤ}
    (accepted : validateSamplingBounds pollIntervalSeconds maxDurationSeconds = none) :
    1 ≤ pollIntervalSeconds := by
  unfold validateSamplingBounds at accepted
  split_ifs at accepted with interval duration
  rw [minPollIntervalSeconds] at interval
  omega

theorem maxDuration_nonneg_of_accepted {pollIntervalSeconds maxDurationSeconds : ℤ}
    (accepted : validateSamplingBounds pollIntervalSeconds maxDurationSeconds = none) :
    0 ≤ maxDurationSeconds := by
  unfold validateSamplingBounds at accepted
  split_ifs at accepted with interval duration
  rw [minMaxDurationSeconds] at duration
  omega

/-- What `read_post_code` returns. -/
structure Reading where
  postCode : String
  postCodeInt : Option ℤ
deriving DecidableEq, Repr

/-- An entry of the list `sample_post_codes` returns. `round` leaves whole numbers as they are. -/
structure Observation where
  postCode : String
  postCodeInt : Option ℤ
  elapsedSeconds : ℤ
  timestamp : String
deriving DecidableEq, Repr

/-- The built-in functions the readings go through: the character tables behind `int` and
`repr` of a value. -/
structure Builtins where
  table : PyText.CharTable
  repr : Literal → String

/-- `str(value)`. -/
def Builtins.str (builtins : Builtins) : Literal → String
  | .str text => text
  | value => builtins.repr value

/-- `parse_post_code_hex`. -/
def parsePostCodeHex (builtins : Builtins) (raw : Literal) : Option ℤ :=
  PyText.intHex builtins.table (builtins.str raw).toList

/-- `record[key]` for a key that is a string. -/
def field? (record : List (Literal × Literal)) (key : String) : Option Literal :=
  (record.findSome? fun entry =>
    match entry.1 with
    | .str text => if text = key then some entry.2 else none
    | _ => none)

/-- The client and the clock: `client.get_webvar`, `sleep`, `monotonic` and `wall_clock`.
Neither of them turns the clock back, and a sleep is no shorter than asked. -/
structure Surroundings (σ : Type) where
  endpoint : String
  getWebvar : String → σ → Except Exn WebVarResponse × σ
  sleep : ℤ → σ → σ
  monotonic : σ → ℤ
  wallClock : σ → String × σ
  getWebvar_monotonic : ∀ name state, monotonic state ≤ monotonic (getWebvar name state).2
  wallClock_monotonic : ∀ state, monotonic state ≤ monotonic (wallClock state).2
  sleep_monotonic : ∀ seconds state, 0 ≤ seconds →
    monotonic state + seconds ≤ monotonic (sleep seconds state)

/-- A sleep takes exactly the time asked. -/
def Surroundings.SleepsExactly {σ : Type} (world : Surroundings σ) : Prop :=
  ∀ seconds state, 0 ≤ seconds →
    world.monotonic (world.sleep seconds state) = world.monotonic state + seconds

section Reading

variable {σ : Type} (builtins : Builtins) (world : Surroundings σ)

def readFailure (message : String) : Exn :=
  protocolError message "asmb8_postcode.read" (some world.endpoint)

/-- `read_post_code` from the response on. -/
def readRecords (response : WebVarResponse) : Except Exn Reading :=
  match response.records with
  | [] => .error (readFailure world (endpointName ++ ".asp returned no records"))
  | record :: _ =>
      match field? record "CurrPostCode" with
      | none =>
          .error (readFailure world (endpointName ++
            ".asp's record did not contain CurrPostCode: " ++ builtins.repr (.dict record)))
      | some raw =>
          .ok {
            postCode := builtins.str raw
            postCodeInt := parsePostCodeHex builtins raw }

def readPostCode (state : σ) : Except Exn Reading × σ :=
  match world.getWebvar endpointName state with
  | (.error exn, state) => (.error exn, state)
  | (.ok response, state) => (readRecords builtins world response, state)

theorem readPostCode_monotonic (state : σ) :
    world.monotonic state ≤ world.monotonic (readPostCode builtins world state).2 := by
  have later := world.getWebvar_monotonic endpointName state
  unfold readPostCode
  split <;> rename_i answer <;> rw [answer] at later <;> exact later

end Reading

section Loop

variable {σ : Type} (builtins : Builtins) (world : Surroundings σ)
  (pollIntervalSeconds maxDurationSeconds start : ℤ)

/-- One round of the loop of `sample_post_codes`. -/
def pollRound (s : List Observation × σ) :
    Loop.Step (List Observation × σ) (Except Exn (List Observation)) :=
  let elapsed := world.monotonic s.2 - start
  match readPostCode builtins world s.2 with
  | (.error exn, state) => .done (.error exn) (s.1, state)
  | (.ok reading, state) =>
      let (timestamp, state) := world.wallClock state
      let observations := s.1 ++ [{
        postCode := reading.postCode
        postCodeInt := reading.postCodeInt
        elapsedSeconds := elapsed
        timestamp }]
      let elapsedAfter := world.monotonic state - start
      if maxDurationSeconds < elapsedAfter + pollIntervalSeconds then
        .done (.ok observations) (observations, state)
      else .again (observations, world.sleep pollIntervalSeconds state)

/-- What one poll does: it fails, or it adds the observation of its start, and then either the
next poll would come too late or the loop sleeps. -/
theorem pollRound_cases (s : List Observation × σ) :
    (∃ exn state, (readPostCode builtins world s.2).1 = .error exn ∧
      pollRound builtins world pollIntervalSeconds maxDurationSeconds start s =
        .done (.error exn) (s.1, state)) ∨
    ∃ observation state, observation.elapsedSeconds = world.monotonic s.2 - start ∧
      world.monotonic s.2 ≤ world.monotonic state ∧
      ((maxDurationSeconds < world.monotonic state - start + pollIntervalSeconds ∧
        pollRound builtins world pollIntervalSeconds maxDurationSeconds start s =
          .done (.ok (s.1 ++ [observation])) (s.1 ++ [observation], state)) ∨
      (world.monotonic state - start + pollIntervalSeconds ≤ maxDurationSeconds ∧
        pollRound builtins world pollIntervalSeconds maxDurationSeconds start s =
          .again (s.1 ++ [observation], world.sleep pollIntervalSeconds state))) := by
  have later := readPostCode_monotonic builtins world s.2
  unfold pollRound
  rcases answer : readPostCode builtins world s.2 with ⟨_ | reading, state⟩
  · exact .inl ⟨_, state, rfl, rfl⟩
  · rw [answer] at later
    have clock := world.wallClock_monotonic state
    right
    refine ⟨{
      postCode := reading.postCode
      postCodeInt := reading.postCodeInt
      elapsedSeconds := world.monotonic s.2 - start
      timestamp := (world.wallClock state).1 }, (world.wallClock state).2, rfl,
      le_trans later clock, ?_⟩
    by_cases late :
        maxDurationSeconds < world.monotonic (world.wallClock state).2 - start + pollIntervalSeconds
    · left
      exact ⟨late, by simp only [if_pos late]⟩
    · right
      exact ⟨by omega, by simp only [if_neg late]⟩

/-- The time left for polls, counted so that it runs out behind the last one. -/
def timeLeft (s : List Observation × σ) : ℕ :=
  (maxDurationSeconds + 1 - (world.monotonic s.2 - start)).toNat

theorem pollRound_decreases {pollIntervalSeconds : ℤ} (positive : 1 ≤ pollIntervalSeconds) :
    Loop.Decreases (timeLeft world maxDurationSeconds start)
      (pollRound builtins world pollIntervalSeconds maxDurationSeconds start) := by
  intro s next round
  rcases pollRound_cases builtins world pollIntervalSeconds maxDurationSeconds start s with
    ⟨exn, state, -, failed⟩ | ⟨observation, state, -, later, ⟨-, left⟩ | ⟨inTime, again⟩⟩
  · rw [failed] at round
    cases round
  · rw [left] at round
    cases round
  · rw [again] at round
    cases round
    have slept := world.sleep_monotonic pollIntervalSeconds state (by omega)
    simp only [timeLeft]
    omega

/-- `sample_post_codes`. -/
def samplePostCodes (positive : 1 ≤ pollIntervalSeconds) (state : σ) :
    Except Exn (List Observation) × σ :=
  let start := world.monotonic state
  let ended := Loop.run (timeLeft world maxDurationSeconds start)
    (pollRound builtins world pollIntervalSeconds maxDurationSeconds start)
    (pollRound_decreases builtins world maxDurationSeconds start positive) ([], state)
  (ended.1, ended.2.2)

end Loop

section Pace

variable {σ : Type} {builtins : Builtins} {world : Surroundings σ}
  {pollIntervalSeconds maxDurationSeconds start : ℤ}

/-- The polls made so far, and the time at which the next one starts. -/
structure Paced (world : Surroundings σ) (pollIntervalSeconds maxDurationSeconds start : ℤ)
    (s : List Observation × σ) : Prop where
  elapsed : (s.1.length : ℤ) * pollIntervalSeconds ≤ world.monotonic s.2 - start
  allowed : (s.1.length : ℤ) * pollIntervalSeconds ≤ maxDurationSeconds
  spaced : s.1.Pairwise fun earlier later =>
    earlier.elapsedSeconds + pollIntervalSeconds ≤ later.elapsedSeconds
  ahead : ∀ observation ∈ s.1,
    observation.elapsedSeconds + pollIntervalSeconds ≤ world.monotonic s.2 - start
  inTime : ∀ observation ∈ s.1, world.SleepsExactly →
    observation.elapsedSeconds ≤ maxDurationSeconds
  nextInTime : world.SleepsExactly → world.monotonic s.2 - start ≤ maxDurationSeconds

theorem Paced.begin (nonneg : 0 ≤ maxDurationSeconds) (state : σ) :
    Paced world pollIntervalSeconds maxDurationSeconds (world.monotonic state) ([], state) where
  elapsed := by simp
  allowed := by simpa using nonneg
  spaced := .nil
  ahead := by simp
  inTime := by simp
  nextInTime := by
    intro _
    simpa using nonneg

variable {s : List Observation × σ} {observation : Observation} {state : σ}

theorem Paced.spaced_append
    (paced : Paced world pollIntervalSeconds maxDurationSeconds start s)
    (observed : observation.elapsedSeconds = world.monotonic s.2 - start) :
    (s.1 ++ [observation]).Pairwise fun earlier later =>
      earlier.elapsedSeconds + pollIntervalSeconds ≤ later.elapsedSeconds := by
  rw [List.pairwise_append]
  refine ⟨paced.spaced, List.pairwise_singleton _ _, ?_⟩
  intro earlier mem later isLast
  rw [List.mem_singleton] at isLast
  rw [isLast, observed]
  exact paced.ahead earlier mem

theorem Paced.inTime_append
    (paced : Paced world pollIntervalSeconds maxDurationSeconds start s)
    (observed : observation.elapsedSeconds = world.monotonic s.2 - start) :
    ∀ poll ∈ s.1 ++ [observation], world.SleepsExactly →
      poll.elapsedSeconds ≤ maxDurationSeconds := by
  intro poll mem exact'
  rcases List.mem_append.mp mem with earlier | isLast
  · exact paced.inTime poll earlier exact'
  · rw [List.mem_singleton] at isLast
    rw [isLast, observed]
    exact paced.nextInTime exact'

/-- The polls are paced when the loop goes round again. -/
theorem Paced.again (paced : Paced world pollIntervalSeconds maxDurationSeconds start s)
    (positive : 1 ≤ pollIntervalSeconds)
    (observed : observation.elapsedSeconds = world.monotonic s.2 - start)
    (later : world.monotonic s.2 ≤ world.monotonic state)
    (inTime : world.monotonic state - start + pollIntervalSeconds ≤ maxDurationSeconds) :
    Paced world pollIntervalSeconds maxDurationSeconds start
      (s.1 ++ [observation], world.sleep pollIntervalSeconds state) := by
  have slept := world.sleep_monotonic pollIntervalSeconds state (by omega)
  have elapsed := paced.elapsed
  have count : ((s.1 ++ [observation]).length : ℤ) * pollIntervalSeconds =
      (s.1.length : ℤ) * pollIntervalSeconds + pollIntervalSeconds := by
    rw [List.length_append, List.length_singleton]
    push_cast
    ring
  refine {
    elapsed := ?_
    allowed := ?_
    spaced := paced.spaced_append observed
    ahead := ?_
    inTime := paced.inTime_append observed
    nextInTime := ?_ }
  · dsimp only
    omega
  · dsimp only
    omega
  · intro poll mem
    rcases List.mem_append.mp mem with earlier | isLast
    · have before := paced.ahead poll earlier
      dsimp only
      omega
    · rw [List.mem_singleton] at isLast
      rw [isLast, observed]
      dsimp only
      omega
  · intro exact'
    dsimp only
    rw [exact' pollIntervalSeconds state (by omega)]
    omega

/-- What is true of the list the loop returns. -/
structure WellSampled (world : Surroundings σ) (pollIntervalSeconds maxDurationSeconds : ℤ)
    (observations : List Observation) : Prop where
  nonempty : 1 ≤ observations.length
  few : (observations.length : ℤ) ≤ maxDurationSeconds / pollIntervalSeconds + 1
  spaced : observations.Pairwise fun earlier later =>
    earlier.elapsedSeconds + pollIntervalSeconds ≤ later.elapsedSeconds
  inTime : ∀ observation ∈ observations, world.SleepsExactly →
    observation.elapsedSeconds ≤ maxDurationSeconds

/-- The last poll completes the list. -/
theorem Paced.wellSampled (paced : Paced world pollIntervalSeconds maxDurationSeconds start s)
    (positive : 1 ≤ pollIntervalSeconds)
    (observed : observation.elapsedSeconds = world.monotonic s.2 - start) :
    WellSampled world pollIntervalSeconds maxDurationSeconds (s.1 ++ [observation]) where
  nonempty := by simp
  few := by
    have quotient : (s.1.length : ℤ) ≤ maxDurationSeconds / pollIntervalSeconds :=
      (Int.le_ediv_iff_mul_le (by omega)).mpr paced.allowed
    rw [List.length_append, List.length_singleton]
    push_cast
    omega
  spaced := paced.spaced_append observed
  inTime := paced.inTime_append observed

/-- A list the loop returns is well sampled. -/
theorem wellSampled_of_ok {positive : 1 ≤ pollIntervalSeconds} (nonneg : 0 ≤ maxDurationSeconds)
    {state : σ} {observations : List Observation}
    (sampled :
      (samplePostCodes builtins world pollIntervalSeconds maxDurationSeconds positive state).1 =
        .ok observations) :
    WellSampled world pollIntervalSeconds maxDurationSeconds observations := by
  revert observations
  refine Loop.run_spec (Paced world pollIntervalSeconds maxDurationSeconds (world.monotonic state))
    (fun (result : Except Exn (List Observation)) _ => ∀ {observations},
      result = .ok observations →
        WellSampled world pollIntervalSeconds maxDurationSeconds observations)
    ?_ (Paced.begin nonneg state)
  intro s paced
  rcases pollRound_cases builtins world pollIntervalSeconds maxDurationSeconds
      (world.monotonic state) s with
    ⟨exn, failed, -, error⟩ |
      ⟨observation, later, observed, passed, ⟨-, left⟩ | ⟨inTime, again⟩⟩
  · rw [error]
    intro observations ok
    cases ok
  · rw [left]
    intro observations ok
    cases ok
    exact paced.wellSampled positive observed
  · rw [again]
    exact paced.again positive observed passed inTime

/-- A loop whose reads succeed returns a list. -/
theorem exists_samplePostCodes (positive : 1 ≤ pollIntervalSeconds)
    (reads : ∀ state, ∃ reading, (readPostCode builtins world state).1 = .ok reading)
    (state : σ) :
    ∃ observations,
      (samplePostCodes builtins world pollIntervalSeconds maxDurationSeconds positive state).1 =
        .ok observations := by
  refine Loop.run_spec (fun _ : List Observation × σ => True)
    (fun (result : Except Exn (List Observation)) _ => ∃ observations, result = .ok observations)
    ?_ trivial
  intro s _
  rcases pollRound_cases builtins world pollIntervalSeconds maxDurationSeconds
      (world.monotonic state) s with
    ⟨exn, failed, error, -⟩ | ⟨observation, later, -, -, ⟨-, left⟩ | ⟨-, again⟩⟩
  · rcases reads s.2 with ⟨reading, ok⟩
    rw [ok] at error
    cases error
  · rw [left]
    exact ⟨_, rfl⟩
  · rw [again]
    trivial

end Pace

section Log

variable {σ : Type}

/-- A call of `client.get_webvar`: for what, when, and what it answered. -/
structure Poll where
  name : String
  start : ℤ
  answer : Except Exn WebVarResponse

/-- The same client and clock, with a list of the calls of the client. -/
def Surroundings.logged (world : Surroundings σ) : Surroundings (σ × List Poll) where
  endpoint := world.endpoint
  getWebvar name s :=
    let (answer, state) := world.getWebvar name s.1
    (answer, state, s.2 ++ [{ name, start := world.monotonic s.1, answer }])
  sleep seconds s := (world.sleep seconds s.1, s.2)
  monotonic s := world.monotonic s.1
  wallClock s :=
    let (timestamp, state) := world.wallClock s.1
    (timestamp, state, s.2)
  getWebvar_monotonic name s := world.getWebvar_monotonic name s.1
  wallClock_monotonic s := world.wallClock_monotonic s.1
  sleep_monotonic seconds s := world.sleep_monotonic seconds s.1

/-- The observation is what this poll read, and tells when the poll started. -/
structure Observes (builtins : Builtins) (world : Surroundings σ) (start : ℤ)
    (observation : Observation) (poll : Poll) : Prop where
  name : poll.name = endpointName
  elapsed : observation.elapsedSeconds = poll.start - start
  read : ∃ response, poll.answer = .ok response ∧ readRecords builtins world response = .ok {
    postCode := observation.postCode
    postCodeInt := observation.postCodeInt }

/-- The loop with a list of the calls is where the loop without one is, and every observation has
its poll. -/
def Watched (builtins : Builtins) (world : Surroundings σ) (start : ℤ) (s : List Observation × σ)
    (t : List Observation × σ × List Poll) : Prop :=
  t.1 = s.1 ∧ t.2.1 = s.2 ∧ List.Forall₂ (Observes builtins world start) s.1 t.2.2

def WatchedEnd (builtins : Builtins) (world : Surroundings σ) (start : ℤ)
    (result : Except Exn (List Observation)) (s : List Observation × σ)
    (result' : Except Exn (List Observation)) (t : List Observation × σ × List Poll) : Prop :=
  result' = result ∧ t.2.1 = s.2 ∧ ∀ observations, result = .ok observations →
    List.Forall₂ (Observes builtins world start) observations t.2.2

section Watched

variable (builtins : Builtins) (world : Surroundings σ)
  (pollIntervalSeconds maxDurationSeconds start : ℤ)

/-- A reading calls the client once. -/
theorem readPostCode_logged (state : σ) (polls : List Poll) :
    ∃ poll : Poll, poll.name = endpointName ∧ poll.start = world.monotonic state ∧
      readPostCode builtins world.logged (state, polls) =
        ((readPostCode builtins world state).1, (readPostCode builtins world state).2,
          polls ++ [poll]) ∧
      ∀ reading, (readPostCode builtins world state).1 = .ok reading →
        ∃ response, poll.answer = .ok response ∧
          readRecords builtins world response = .ok reading := by
  have call : world.logged.getWebvar endpointName (state, polls) =
      ((world.getWebvar endpointName state).1, (world.getWebvar endpointName state).2,
        polls ++ [⟨endpointName, world.monotonic state, (world.getWebvar endpointName state).1⟩]) :=
    rfl
  refine ⟨⟨endpointName, world.monotonic state, (world.getWebvar endpointName state).1⟩, rfl, rfl,
    ?_⟩
  unfold readPostCode
  rw [call]
  rcases world.getWebvar endpointName state with ⟨exn | response, later⟩
  · refine ⟨rfl, ?_⟩
    rintro reading ⟨⟩
  · exact ⟨rfl, fun reading read => ⟨response, rfl, read⟩⟩

/-- A round polls once, and a round that does not fail adds the observation of its poll. -/
theorem pollRound_logged (s : List Observation × σ) (t : List Observation × σ × List Poll)
    (watched : Watched builtins world start s t) :
    (pollRound builtins world pollIntervalSeconds maxDurationSeconds start s).Related
      (Watched builtins world start) (WatchedEnd builtins world start)
      (pollRound builtins world.logged pollIntervalSeconds maxDurationSeconds start t) := by
  rcases s with ⟨observations, state⟩
  rcases t with ⟨observations', state', polls⟩
  obtain ⟨rfl, rfl, observed⟩ : observations' = observations ∧ state' = state ∧ _ := watched
  rcases readPostCode_logged builtins world state' polls with ⟨poll, named, began, same, answered⟩
  unfold pollRound
  dsimp only
  rw [same]
  rcases outcome : readPostCode builtins world state' with ⟨exn | reading, later⟩
  · refine ⟨rfl, rfl, ?_⟩
    rintro observations ⟨⟩
  · rw [outcome] at answered
    have more : List.Forall₂ (Observes builtins world start) (observations' ++ [{
          postCode := reading.postCode
          postCodeInt := reading.postCodeInt
          elapsedSeconds := world.monotonic state' - start
          timestamp := (world.wallClock later).1 }]) (polls ++ [poll]) := by
      refine List.rel_append observed (.cons ⟨named, ?_, answered reading rfl⟩ .nil)
      rw [began]
    have clock : world.logged.monotonic (world.logged.wallClock (later, polls ++ [poll])).2 =
        world.monotonic (world.wallClock later).2 := rfl
    dsimp only
    rw [clock]
    split_ifs with late
    · refine ⟨rfl, rfl, ?_⟩
      rintro observations ⟨⟩
      exact more
    · exact ⟨rfl, rfl, more⟩

/-- With a list of the calls the loop returns the same, and the list has one call of the client
for every observation. -/
theorem samplePostCodes_logged (positive : 1 ≤ pollIntervalSeconds) (state : σ) :
    ∃ polls,
      samplePostCodes builtins world.logged pollIntervalSeconds maxDurationSeconds positive
          (state, []) =
        ((samplePostCodes builtins world pollIntervalSeconds maxDurationSeconds positive state).1,
          (samplePostCodes builtins world pollIntervalSeconds maxDurationSeconds positive state).2,
          polls) ∧
      ∀ observations,
        (samplePostCodes builtins world pollIntervalSeconds maxDurationSeconds positive state).1 =
          .ok observations →
        List.Forall₂ (Observes builtins world (world.monotonic state)) observations polls := by
  let start := world.monotonic state
  have together : WatchedEnd builtins world start _ _ _ _ :=
    Loop.run_related
      (pollRound_decreases builtins world maxDurationSeconds start positive)
      (pollRound_decreases builtins world.logged maxDurationSeconds start positive)
      (Watched builtins world start) (WatchedEnd builtins world start)
      (pollRound_logged builtins world pollIntervalSeconds maxDurationSeconds start)
      (⟨rfl, rfl, .nil⟩ : Watched builtins world start ([], state) ([], state, []))
  rcases together with ⟨same, final, observed⟩
  exact ⟨_, Prod.ext same (Prod.ext final rfl), observed⟩

end Watched

variable {builtins : Builtins} {world : Surroundings σ} {pollIntervalSeconds start : ℤ}

theorem exists_observation {observations : List Observation} {polls : List Poll} {poll : Poll}
    (observed : List.Forall₂ (Observes builtins world start) observations polls)
    (mem : poll ∈ polls) :
    ∃ observation ∈ observations, Observes builtins world start observation poll := by
  induction observed with
  | nil => cases mem
  | cons observes _ ih =>
      rcases List.mem_cons.mp mem with rfl | mem
      · exact ⟨_, List.mem_cons_self .., observes⟩
      · rcases ih mem with ⟨observation, isObserved, observes'⟩
        exact ⟨observation, List.mem_cons_of_mem _ isObserved, observes'⟩

theorem starts_spaced {observations : List Observation} {polls : List Poll}
    (observed : List.Forall₂ (Observes builtins world start) observations polls)
    (spaced : observations.Pairwise fun earlier later =>
      earlier.elapsedSeconds + pollIntervalSeconds ≤ later.elapsedSeconds) :
    polls.Pairwise fun earlier later => earlier.start + pollIntervalSeconds ≤ later.start := by
  induction observed with
  | nil => exact .nil
  | cons observes observed ih =>
      rw [List.pairwise_cons] at spaced ⊢
      refine ⟨?_, ih spaced.2⟩
      intro later mem
      rcases exists_observation observed mem with ⟨observation, isObserved, observes'⟩
      have apart := spaced.1 observation isObserved
      rw [observes.elapsed, observes'.elapsed] at apart
      omega

end Log

section Bounds

variable {σ : Type}

/-- For every interval of at least one second, every duration that is accepted and every clock,
the loop ends. A list of the calls of the client shows that it has polled once for every
observation, once at least and no more often than the duration has room for, with the interval
between the starts of any two polls, and when no sleep is too long, no poll starts too late. -/
theorem samplePostCodes_bounds (builtins : Builtins) (world : Surroundings σ)
    (checkedInterval pollIntervalSeconds maxDurationSeconds : ℤ)
    (positive : 1 ≤ pollIntervalSeconds)
    (accepted : validateSamplingBounds checkedInterval maxDurationSeconds = none)
    (reads : ∀ state, ∃ reading, (readPostCode builtins world state).1 = .ok reading)
    (state : σ) :
    ∃ observations final polls,
      samplePostCodes builtins world pollIntervalSeconds maxDurationSeconds positive state =
        (.ok observations, final) ∧
      samplePostCodes builtins world.logged pollIntervalSeconds maxDurationSeconds positive
        (state, []) = (.ok observations, final, polls) ∧
      List.Forall₂ (Observes builtins world (world.monotonic state)) observations polls ∧
      1 ≤ observations.length ∧
      (observations.length : ℤ) ≤ maxDurationSeconds / pollIntervalSeconds + 1 ∧
      (polls.Pairwise fun earlier later => earlier.start + pollIntervalSeconds ≤ later.start) ∧
      (world.SleepsExactly →
        ∀ poll ∈ polls, poll.start ≤ world.monotonic state + maxDurationSeconds) := by
  rcases exists_samplePostCodes positive reads state with ⟨observations, result⟩
  have sampled := wellSampled_of_ok (maxDuration_nonneg_of_accepted accepted) result
  rcases samplePostCodes_logged builtins world pollIntervalSeconds maxDurationSeconds positive
    state with ⟨polls, same, observed⟩
  have watched := observed observations result
  refine ⟨observations, _, polls, Prod.ext result rfl, ?_, watched, sampled.nonempty, sampled.few,
    ?_, ?_⟩
  · rw [same, result]
  · exact starts_spaced watched sampled.spaced
  · intro exactly poll mem
    rcases exists_observation watched mem with ⟨observation, isObserved, observes⟩
    have inTime := sampled.inTime observation isObserved exactly
    rw [observes.elapsed] at inTime
    omega

/-- A BMC that always answers `00`, in one second, and sleeps of the time asked. -/
def steady : Surroundings ℤ where
  endpoint := "192.0.2.10:443"
  getWebvar _ now :=
    (.ok {
      variableName := "GETPOSTCODE"
      structName := "GETPOSTCODE"
      records := [[(.str "CurrPostCode", .str "00")]]
      hapiStatus := 0 }, now + 1)
  sleep seconds now := now + seconds
  monotonic now := now
  wallClock now := (toString now, now)
  getWebvar_monotonic _ now := by simp
  wallClock_monotonic now := le_rfl
  sleep_monotonic seconds now _ := le_rfl

theorem samplePostCodes_bounds_steady :
    ∃ observations final polls,
      samplePostCodes ⟨PyText.asciiTable, fun _ => ""⟩ steady 2 6 (by decide) 0 =
        (.ok observations, final) ∧
      samplePostCodes ⟨PyText.asciiTable, fun _ => ""⟩ steady.logged 2 6 (by decide) (0, []) =
        (.ok observations, final, polls) ∧
      List.Forall₂ (Observes ⟨PyText.asciiTable, fun _ => ""⟩ steady 0) observations polls ∧
      1 ≤ observations.length ∧ (observations.length : ℤ) ≤ 6 / 2 + 1 ∧
      (polls.Pairwise fun earlier later => earlier.start + 2 ≤ later.start) ∧
      (steady.SleepsExactly → ∀ poll ∈ polls, poll.start ≤ 0 + 6) :=
  samplePostCodes_bounds ⟨PyText.asciiTable, fun _ => ""⟩ steady 2 2 6 (by decide) (by decide)
    (fun _ => ⟨_, rfl⟩) 0

end Bounds

section Distinct

/-- The loop of `distinct_post_codes_in_order`. -/
def distinctFrom : Finset String × List String → List Observation → Finset String × List String
  | s, [] => s
  | (seen, distinct), observation :: rest =>
      let code := observation.postCode
      if code ∈ seen then distinctFrom (seen, distinct) rest
      else distinctFrom (insert code seen, distinct ++ [code]) rest

def distinctPostCodesInOrder (observations : List Observation) : List String :=
  (distinctFrom (∅, []) observations).2

/-- What the loop has collected from the codes it has passed. -/
structure Distinct (codes : List String) (s : Finset String × List String) : Prop where
  seen : ∀ code, code ∈ s.1 ↔ code ∈ codes
  listed : ∀ code, code ∈ s.2 ↔ code ∈ codes
  nodup : s.2.Nodup
  inOrder : s.2.Sublist codes

theorem Distinct.add {codes : List String} {s : Finset String × List String}
    (collected : Distinct codes s) {code : String} (fresh : code ∉ s.1) :
    Distinct (codes ++ [code]) (insert code s.1, s.2 ++ [code]) where
  seen other := by
    rw [Finset.mem_insert, List.mem_append, List.mem_singleton, collected.seen]
    exact or_comm
  listed other := by
    rw [List.mem_append, List.mem_append, collected.listed]
  nodup := by
    have unlisted : code ∉ s.2 := by
      rw [collected.listed, ← collected.seen]
      exact fresh
    rw [List.nodup_append]
    refine ⟨collected.nodup, List.nodup_singleton _, ?_⟩
    intro other mem last isLast
    rw [List.mem_singleton] at isLast
    rw [isLast]
    rintro rfl
    exact unlisted mem
  inOrder := collected.inOrder.append (List.Sublist.refl _)

theorem Distinct.skip {codes : List String} {s : Finset String × List String}
    (collected : Distinct codes s) {code : String} (known : code ∈ s.1) :
    Distinct (codes ++ [code]) s where
  seen other := by
    rw [List.mem_append, List.mem_singleton, collected.seen]
    refine ⟨Or.inl, ?_⟩
    rintro (mem | rfl)
    · exact mem
    · exact (collected.seen _).mp known
  listed other := by
    rw [List.mem_append, List.mem_singleton, collected.listed]
    refine ⟨Or.inl, ?_⟩
    rintro (mem | rfl)
    · exact mem
    · exact (collected.seen _).mp known
  nodup := collected.nodup
  inOrder := collected.inOrder.trans (List.sublist_append_left _ _)

theorem distinctFrom_spec {codes : List String} {s : Finset String × List String}
    {observations : List Observation} (collected : Distinct codes s) :
    Distinct (codes ++ observations.map Observation.postCode) (distinctFrom s observations) := by
  induction observations generalizing codes s with
  | nil => simpa [distinctFrom] using collected
  | cons observation rest ih =>
      rcases s with ⟨seen, distinct⟩
      rw [distinctFrom, List.map_cons, List.append_cons]
      split_ifs with known
      · exact ih (collected.skip known)
      · exact ih (collected.add known)

/-- Every code that was observed is listed once, in the order of the observations. -/
theorem distinctPostCodesInOrder_spec (observations : List Observation) :
    (∀ code, code ∈ distinctPostCodesInOrder observations ↔
      ∃ observation ∈ observations, observation.postCode = code) ∧
    (distinctPostCodesInOrder observations).Nodup ∧
    (distinctPostCodesInOrder observations).Sublist (observations.map Observation.postCode) := by
  have begin : Distinct [] ((∅, []) : Finset String × List String) := {
    seen := by simp
    listed := by simp
    nodup := List.nodup_nil
    inOrder := List.Sublist.refl _ }
  have collected : Distinct ([] ++ observations.map Observation.postCode)
      (distinctFrom (∅, []) observations) := distinctFrom_spec begin
  rw [List.nil_append] at collected
  refine ⟨fun code => ?_, collected.nodup, collected.inOrder⟩
  rw [distinctPostCodesInOrder, collected.listed, List.mem_map]

end Distinct

section Main

/-- The options of `asmb8_postcode` that are not about the connection. -/
structure Params where
  sample : Bool := false
  pollIntervalSeconds : ℤ := 5
  maxDurationSeconds : ℤ := 60
deriving DecidableEq, Repr

structure SampleResult where
  observations : List Observation
  distinctPostCodes : List String
  pollIntervalSeconds : ℤ
  maxDurationSeconds : ℤ
  sampleCount : ℕ
deriving DecidableEq, Repr

/-- What the module exits with. -/
structure Report where
  postCode : String
  postCodeInt : Option ℤ
  sample : Option SampleResult
deriving DecidableEq, Repr

/-- `observations[-1]` and the observations as the module returns them; the list of a loop that
has returned is not empty. -/
def sampleReport (params : Params) (observations : List Observation) : Option Report :=
  observations.getLast?.map fun latest => {
    postCode := latest.postCode
    postCodeInt := latest.postCodeInt
    sample := some {
      observations
      distinctPostCodes := distinctPostCodesInOrder observations
      pollIntervalSeconds := params.pollIntervalSeconds
      maxDurationSeconds := params.maxDurationSeconds
      sampleCount := observations.length } }

/-- What makes the module fail: its own check of the options, or an exception. -/
inductive Failure where
  | refused (message : String)
  | raised (exn : Exn)

variable {ν : Type}

/-- A client on a network, with the time of day: how long a read and how much longer than asked
a sleep takes may depend on the time. -/
def clientSurroundings (client : AspClient) (readers : BodyReaders WebVarResponse ν)
    (readTime oversleep : ℤ → ℕ) (isoformat : ℤ → String) : Surroundings (Http × ℤ) where
  endpoint := client.endpoint
  getWebvar name state :=
    let answer := client.getWebvar readers name none state.1
    (answer.1, answer.2, state.2 + readTime state.2)
  sleep seconds state := (state.1, state.2 + seconds + oversleep state.2)
  monotonic state := state.2
  wallClock state := (isoformat state.2, state)
  getWebvar_monotonic name state := by simp
  wallClock_monotonic state := le_rfl
  sleep_monotonic seconds state _ := by simp

variable (builtins : Builtins) (readers : BodyReaders WebVarResponse ν)
  (readTime oversleep : ℤ → ℕ) (isoformat : ℤ → String)

/-- The readings of `main` on a client that has logged in. -/
def mainSampled (params : Params) (positive : 1 ≤ params.pollIntervalSeconds)
    (client : AspClient) (state : Http × ℤ) : Except Failure (Option Report) :=
  let world := clientSurroundings client readers readTime oversleep isoformat
  match (samplePostCodes builtins world params.pollIntervalSeconds params.maxDurationSeconds
      positive state).1 with
  | .error exn => .error (.raised exn)
  | .ok observations => .ok (sampleReport params observations)

def mainRead (client : AspClient) (state : Http × ℤ) : Except Failure (Option Report) :=
  let world := clientSurroundings client readers readTime oversleep isoformat
  match (readPostCode builtins world state).1 with
  | .error exn => .error (.raised exn)
  | .ok reading =>
      .ok (some { postCode := reading.postCode, postCodeInt := reading.postCodeInt
                  sample := none })

/-- `asmb8_postcode.main` for a client built from the parameters. -/
def main (params : Params) (client : AspClient) (state : Http × ℤ) :
    Except Failure (Option Report) :=
  if params.sample = true then
    match checked :
        validateSamplingBounds params.pollIntervalSeconds params.maxDurationSeconds with
    | some message => .error (.refused message)
    | none =>
        match client.login state.1 with
        | (.error exn, _, _) => .error (.raised exn)
        | (.ok _, client, http) =>
            mainSampled builtins readers readTime oversleep isoformat params
              (pollInterval_pos_of_accepted checked) client (http, state.2)
  else
    match client.login state.1 with
    | (.error exn, _, _) => .error (.raised exn)
    | (.ok _, client, http) =>
        mainRead builtins readers readTime oversleep isoformat client (http, state.2)

/-- What a run that samples reports: its observations, bounded in number, and the code observed
last, which is among the distinct ones. -/
theorem mainSampled_spec {params : Params} {positive : 1 ≤ params.pollIntervalSeconds}
    {client : AspClient} {state : Http × ℤ} {report : Option Report}
    (nonneg : 0 ≤ params.maxDurationSeconds)
    (ok : mainSampled builtins readers readTime oversleep isoformat params positive client state =
      .ok report) :
    ∃ observations latest, report = sampleReport params observations ∧
      observations.getLast? = some latest ∧
      (observations.length : ℤ) ≤ params.maxDurationSeconds / params.pollIntervalSeconds + 1 ∧
      latest.postCode ∈ distinctPostCodesInOrder observations := by
  unfold mainSampled at ok
  dsimp only at ok
  split at ok
  case h_1 => cases ok
  case h_2 observations sampled =>
    cases ok
    have wellSampled := wellSampled_of_ok nonneg sampled
    have nonempty : observations ≠ [] := List.ne_nil_of_length_pos wellSampled.nonempty
    refine ⟨observations, observations.getLast nonempty, rfl,
      List.getLast?_eq_some_getLast nonempty, wellSampled.few, ?_⟩
    rw [(distinctPostCodesInOrder_spec observations).1]
    exact ⟨_, List.getLast_mem nonempty, rfl⟩

/-- What the module reports when it samples. -/
theorem main_sampled {params : Params} {client : AspClient} {state : Http × ℤ}
    {report : Option Report} (samples : params.sample = true)
    (ok : main builtins readers readTime oversleep isoformat params client state = .ok report) :
    ∃ observations latest, report = sampleReport params observations ∧
      observations.getLast? = some latest ∧
      (observations.length : ℤ) ≤ params.maxDurationSeconds / params.pollIntervalSeconds + 1 ∧
      latest.postCode ∈ distinctPostCodesInOrder observations := by
  unfold main at ok
  rw [if_pos samples] at ok
  split at ok
  case h_1 => cases ok
  case h_2 accepted =>
    split at ok
    case h_1 => cases ok
    case h_2 =>
      exact mainSampled_spec builtins readers readTime oversleep isoformat
        (maxDuration_nonneg_of_accepted accepted) ok

end Main

end Asmb8Ikvm.PostCode

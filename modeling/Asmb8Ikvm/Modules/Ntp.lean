import Asmb8Ikvm.Errors
import Asmb8Ikvm.Lib.OrderedDict

/-!
# NTP settings

`asmb8_ntp`: the decoded `getntpcfg.asp` record, the plan, the body of
`setntpcfg.asp`, and `main` on the session it talks through.

The record is whatever the BMC sends, so its values are arbitrary Python values
and each of them may be absent. What check mode promises is a statement about
two runs on one BMC, and what a run leaves behind is a statement about the run
after it. Both are about a BMC that stores what it is sent.
-/

namespace Asmb8Ikvm.Ntp

/-- A value in a record, as `ast.literal_eval` makes it. Values of the remaining types are given
by their `repr`. -/
inductive Value where
  | none
  | bool (value : Bool)
  | int (value : ℤ)
  | str (text : String)
  | other (repr : String)
deriving DecidableEq, Repr

/-- The remaining values that are false: zeros, empty containers and empty bytes. -/
def falsyReprs : List String :=
  ["0.0", "-0.0", "0j", "-0j", "(-0+0j)", "(-0-0j)", "[]", "()", "\x7b\x7d", "set()", "b''"]

/-- `bool(value)`. -/
def Value.truthy : Value → Bool
  | .none => false
  | .bool value => value
  | .int value => value ≠ 0
  | .str text => text ≠ ""
  | .other repr => repr ∉ falsyReprs

abbrev Record := OrderedDict String Value

/-- `record.get(key)`. -/
def getField (record : Record) (key : String) : Value :=
  (record.get? key).getD .none

/-- What `decode_ntp_state` returns. -/
structure NtpState where
  server1 : Value
  server2 : Value
  enabled : Option Bool
  ntpStatusRaw : Value
deriving DecidableEq, Repr

/-- `bool(status_raw) if status_raw is not None else None`. -/
def decodeEnabled (statusRaw : Value) : Option Bool :=
  if statusRaw ≠ .none then some statusRaw.truthy else none

def decodeNtpState (record : Record) : NtpState :=
  let statusRaw := getField record "NTP_STATUS"
  { server1 := getField record "SERVER_NAME1"
    server2 := getField record "SERVER_NAME2"
    enabled := decodeEnabled statusRaw
    ntpStatusRaw := statusRaw }

/-- The options; `none` is an option that is not given. -/
structure Params where
  server1 : Option String := none
  server2 : Option String := none
  enabled : Option Bool := none
deriving DecidableEq, Repr

structure Desired where
  server1 : Value
  server2 : Value
  enabled : Option Bool
deriving DecidableEq, Repr

/-- `params[key] if params[key] is not None else current[key]` for a server. -/
def orCurrent (param : Option String) (current : Value) : Value :=
  match param with
  | some text => .str text
  | none => current

def plan (current : NtpState) (params : Params) : Desired × Bool :=
  let desired : Desired := {
    server1 := orCurrent params.server1 current.server1
    server2 := orCurrent params.server2 current.server2
    enabled := params.enabled.or current.enabled }
  (desired, desired.server1 ≠ current.server1 || desired.server2 ≠ current.server2 ||
    desired.enabled ≠ current.enabled)

/-- `value or ""`. -/
def orEmpty (value : Value) : Value :=
  if value.truthy = true then value else .str ""

/-- The body of the write, a dictionary with these four keys. -/
structure SetntpcfgData where
  newNtpserverName1 : Value
  oldNtpserverName1 : Value
  newNtpserverName2 : Value
  isntpenable : String
deriving DecidableEq, Repr

def buildSetntpcfgData (current : NtpState) (desired : Desired) : SetntpcfgData where
  newNtpserverName1 := orEmpty desired.server1
  oldNtpserverName1 := orEmpty current.server1
  newNtpserverName2 := orEmpty desired.server2
  isntpenable := if desired.enabled = some true then "1" else "0"

/-- The calls `main` makes on a client, with the state behind it. -/
structure Session (σ : Type) where
  endpoint : String
  login : σ → Except Exn Unit × σ
  getntpcfg : σ → Except Exn (List Record) × σ
  setntpcfg : SetntpcfgData → σ → Except Exn Unit × σ

/-- What the module exits with. -/
structure Report where
  changed : Bool
  previousState : NtpState
  desiredState : Desired
  observed : NtpState
deriving DecidableEq, Repr

/-- `records[0] if records else {}`. -/
def firstRecord (records : List Record) : Record :=
  records.head?.getD .empty

@[simp]
theorem firstRecord_cons (record : Record) (rest : List Record) :
    firstRecord (record :: rest) = record := rfl

section Main

variable {σ : Type} (session : Session σ)

def refusesToGuess : Exn :=
  protocolError ("getntpcfg.asp did not report NTP_STATUS, so this module cannot determine the " ++
    "current NTP enable state and will not guess an ISNTPENABLE value for an unrelated server " ++
    "change. Set `enabled` explicitly to proceed.") "asmb8_ntp.apply" (some session.endpoint)

/-- `main` from the write on. -/
def write (current : NtpState) (desired : Desired) (state : σ) : Except Exn Report × σ :=
  match session.setntpcfg (buildSetntpcfgData current desired) state with
  | (.error exn, state) => (.error exn, state)
  | (.ok _, state) =>
      match session.getntpcfg state with
      | (.error exn, state) => (.error exn, state)
      | (.ok records, state) =>
          (.ok {
            changed := true
            previousState := current
            desiredState := desired
            observed := decodeNtpState (firstRecord records) }, state)

/-- `main` from the plan on. -/
def afterRead (params : Params) (checkMode : Bool) (current : NtpState) (state : σ) :
    Except Exn Report × σ :=
  let (desired, changed) := plan current params
  if changed = false ∨ checkMode = true then
    (.ok { changed, previousState := current, desiredState := desired, observed := current }, state)
  else if desired.enabled = none then (.error (refusesToGuess session), state)
  else write session current desired state

/-- `asmb8_ntp.main`. -/
def main (params : Params) (checkMode : Bool) (state : σ) : Except Exn Report × σ :=
  match session.login state with
  | (.error exn, state) => (.error exn, state)
  | (.ok _, state) =>
      match session.getntpcfg state with
      | (.error exn, state) => (.error exn, state)
      | (.ok records, state) =>
          afterRead session params checkMode (decodeNtpState (firstRecord records)) state

end Main

/-- A BMC: the records of `getntpcfg.asp`, and the writes it has received. -/
structure Bmc where
  records : List Record
  writes : List SetntpcfgData := []

/-- How a written value is read back. Texts are stored as they are written. -/
structure Storage where
  stored : Value → Value
  stored_str : ∀ text, stored (.str text) = .str text

/-- The record a write leaves. -/
def Storage.update (storage : Storage) (data : SetntpcfgData) (record : Record) : Record :=
  ((record.set "SERVER_NAME1" (storage.stored data.newNtpserverName1)).set
    "SERVER_NAME2" (storage.stored data.newNtpserverName2)).set
    "NTP_STATUS" (.int (if data.isntpenable = "1" then 1 else 0))

/-- The session with a BMC that accepts every write and stores exactly what is written. -/
def accepting (storage : Storage) (endpoint : String) : Session Bmc where
  endpoint
  login bmc := (.ok (), bmc)
  getntpcfg bmc := (.ok bmc.records, bmc)
  setntpcfg data bmc :=
    (.ok (), {
      records := storage.update data (firstRecord bmc.records) :: bmc.records.tail
      writes := bmc.writes ++ [data] })

/-- The run succeeds with this change and this desired state. -/
def Succeeds (outcome : Except Exn Report × Bmc) (changed : Bool) (desired : Desired) : Prop :=
  ∃ report, outcome.1 = .ok report ∧ report.changed = changed ∧ report.desiredState = desired

/-- Check mode succeeds with a change and a desired state exactly when the real run does. -/
def Predicts (session : Session Bmc) (params : Params) (bmc : Bmc) : Prop :=
  ∀ changed desired,
    Succeeds (main session params true bmc) changed desired ↔
      Succeeds (main session params false bmc) changed desired

/-- The value of a field as it is written; the text for a value that is not there is empty. -/
def currentText (value : Value) : Value :=
  if value = .none then .str "" else value

/-- A write has the current value of every field that is not given. -/
structure Carries (params : Params) (state : NtpState) (data : SetntpcfgData) : Prop where
  server1 : params.server1 = none → data.newNtpserverName1 = currentText state.server1
  server2 : params.server2 = none → data.newNtpserverName2 = currentText state.server2
  enabled : params.enabled = none →
    ∃ enabled, state.enabled = some enabled ∧ data.isntpenable = if enabled = true then "1" else "0"

/-- A real run writes once at most, and what it writes has the current value of every field that
is not given. -/
def WritesOnce (session : Session Bmc) (params : Params) (bmc : Bmc) : Prop :=
  ∀ report, (main session params false bmc).1 = .ok report →
    (main session params false bmc).2.writes = bmc.writes ∨
    ∃ data, (main session params false bmc).2.writes = bmc.writes ++ [data] ∧
      Carries params (decodeNtpState (firstRecord bmc.records)) data

/-- The run after a successful one changes nothing and writes nothing. -/
def Converges (session : Session Bmc) (params : Params) (bmc : Bmc) : Prop :=
  ∀ report, (main session params false bmc).1 = .ok report →
    let later := (main session params false bmc).2
    ∃ again, (main session params false later).1 = .ok again ∧ again.changed = false ∧
      (main session params false later).2 = later

/-- An option that is given differs from what the BMC has. -/
def Differs (params : Params) (state : NtpState) : Prop :=
  (∃ text, params.server1 = some text ∧ state.server1 ≠ .str text) ∨
  (∃ text, params.server2 = some text ∧ state.server2 ≠ .str text) ∨
  ∃ enabled, params.enabled = some enabled ∧ state.enabled ≠ some enabled

/-- The value is absent, a text, or true: not a zero and not an empty container. -/
def Value.Keepable (value : Value) : Prop :=
  value = .none ∨ value = .str "" ∨ value.truthy = true

/-- What check mode and a real run promise. -/
structure KeepsPromise (session : Session Bmc) (params : Params) (bmc : Bmc) : Prop where
  predicts : Predicts session params bmc
  writesOnce : WritesOnce session params bmc
  converges : Converges session params bmc

section Values

variable {value : Value} {state : NtpState} {params : Params}

theorem orEmpty_str (text : String) : orEmpty (.str text) = .str text := by
  by_cases empty : text = ""
  · simp [orEmpty, Value.truthy, empty]
  · simp [orEmpty, Value.truthy, empty]

theorem orEmpty_eq_currentText_iff : orEmpty value = currentText value ↔ value.Keepable := by
  unfold orEmpty currentText Value.Keepable
  by_cases isTrue : value.truthy = true
  · have present : value ≠ .none := by
      rintro rfl
      cases isTrue
    simp [isTrue, present]
  · by_cases absent : value = .none
    · simp [absent, Value.truthy]
    · simp [isTrue, absent, eq_comm]

theorem orCurrent_ne_iff {param : Option String} :
    orCurrent param value ≠ value ↔ ∃ text, param = some text ∧ value ≠ .str text := by
  cases param with
  | none => simp [orCurrent]
  | some text =>
      simp only [orCurrent, Option.some.injEq, exists_eq_left']
      exact ne_comm

theorem or_ne_iff {param enabled : Option Bool} :
    param.or enabled ≠ enabled ↔ ∃ given, param = some given ∧ enabled ≠ some given := by
  cases param with
  | none => simp
  | some given =>
      simp only [Option.some_or, Option.some.injEq, exists_eq_left']
      exact ne_comm

theorem plan_changed_iff : (plan state params).2 = true ↔ Differs params state := by
  simp only [plan, Bool.or_eq_true, decide_eq_true_eq, orCurrent_ne_iff, or_ne_iff, Differs,
    or_assoc]

theorem enabled_plan_eq_none_iff :
    (plan state params).1.enabled = none ↔ params.enabled = none ∧ state.enabled = none := by
  simp [plan]

theorem enabled_decode_eq_none_iff {record : Record} :
    (decodeNtpState record).enabled = none ↔ getField record "NTP_STATUS" = .none := by
  simp [decodeNtpState, decodeEnabled]

end Values

section Runs

variable {storage : Storage} {endpoint : String} {params : Params} {bmc : Bmc}

/-- The state a run on a BMC reads. -/
def Bmc.state (bmc : Bmc) : NtpState :=
  decodeNtpState (firstRecord bmc.records)

theorem main_checkMode :
    main (accepting storage endpoint) params true bmc =
      (.ok {
        changed := (plan bmc.state params).2
        previousState := bmc.state
        desiredState := (plan bmc.state params).1
        observed := bmc.state }, bmc) := by
  simp [main, accepting, afterRead, Bmc.state]

theorem main_unchanged (same : ¬ Differs params bmc.state) :
    main (accepting storage endpoint) params false bmc =
      (.ok {
        changed := false
        previousState := bmc.state
        desiredState := (plan bmc.state params).1
        observed := bmc.state }, bmc) := by
  have unchanged : (plan bmc.state params).2 = false := by
    rw [← Bool.not_eq_true, plan_changed_iff]
    exact same
  rw [Bmc.state] at unchanged
  simp [main, accepting, afterRead, Bmc.state, unchanged]

theorem main_refused (differs : Differs params bmc.state)
    (unknown : (plan bmc.state params).1.enabled = none) :
    main (accepting storage endpoint) params false bmc =
      (.error (refusesToGuess (accepting storage endpoint)), bmc) := by
  have changed := plan_changed_iff.mpr differs
  rw [Bmc.state] at changed unknown
  simp [main, accepting, afterRead, changed, unknown]

/-- The BMC after the write of a run. -/
def Bmc.written (storage : Storage) (params : Params) (bmc : Bmc) : Bmc :=
  let data := buildSetntpcfgData bmc.state (plan bmc.state params).1
  { records := storage.update data (firstRecord bmc.records) :: bmc.records.tail
    writes := bmc.writes ++ [data] }

theorem main_written (storage : Storage) (endpoint : String) (differs : Differs params bmc.state)
    (known : (plan bmc.state params).1.enabled ≠ none) :
    main (accepting storage endpoint) params false bmc =
      (.ok {
        changed := true
        previousState := bmc.state
        desiredState := (plan bmc.state params).1
        observed := (bmc.written storage params).state }, bmc.written storage params) := by
  have changed := plan_changed_iff.mpr differs
  rw [Bmc.state] at changed known
  simp [main, accepting, afterRead, write, changed, known, Bmc.state, Bmc.written]

/-- Every option that is given is what the BMC has after the write. -/
theorem not_differs_written :
    ¬ Differs params (bmc.written storage params).state := by
  rintro (⟨text, given, differs⟩ | ⟨text, given, differs⟩ | ⟨enabled, given, differs⟩)
  · refine differs ?_
    simp [Bmc.written, Bmc.state, decodeNtpState, getField, Storage.update,
      OrderedDict.get?_set, buildSetntpcfgData, plan, given, orCurrent, orEmpty_str,
      storage.stored_str]
  · refine differs ?_
    simp [Bmc.written, Bmc.state, decodeNtpState, getField, Storage.update,
      OrderedDict.get?_set, buildSetntpcfgData, plan, given, orCurrent, orEmpty_str,
      storage.stored_str]
  · refine differs ?_
    cases enabled <;>
      simp [Bmc.written, Bmc.state, decodeNtpState, decodeEnabled, getField,
        Storage.update, OrderedDict.get?_set, buildSetntpcfgData, plan, given, Value.truthy]

theorem predicts_iff :
    Predicts (accepting storage endpoint) params bmc ↔
      (Differs params bmc.state → (plan bmc.state params).1.enabled ≠ none) := by
  by_cases differs : Differs params bmc.state
  · have changed := plan_changed_iff.mpr differs
    by_cases unknown : (plan bmc.state params).1.enabled = none
    · refine iff_of_false (fun predicts => ?_) (fun known => known differs unknown)
      have real := (predicts true (plan bmc.state params).1).mp
        ⟨_, by rw [main_checkMode], changed, rfl⟩
      rcases real with ⟨report, ok, -⟩
      rw [main_refused differs unknown] at ok
      cases ok
    · refine iff_of_true ?_ (fun _ => unknown)
      intro changed' desired
      rw [main_checkMode, main_written storage endpoint differs unknown, changed]
      simp [Succeeds]
  · refine iff_of_true ?_ (fun differs' => absurd differs' differs)
    intro changed' desired
    have unchanged : (plan bmc.state params).2 = false := by
      rw [← Bool.not_eq_true, plan_changed_iff]
      exact differs
    rw [main_checkMode, main_unchanged differs, unchanged]

theorem carries_iff (known : (plan bmc.state params).1.enabled ≠ none) :
    Carries params bmc.state (buildSetntpcfgData bmc.state (plan bmc.state params).1) ↔
      (params.server1 = none → bmc.state.server1.Keepable) ∧
      (params.server2 = none → bmc.state.server2.Keepable) := by
  constructor
  · intro carries
    refine ⟨fun omitted => ?_, fun omitted => ?_⟩
    · have same := carries.server1 omitted
      rw [← orEmpty_eq_currentText_iff, ← same]
      simp [buildSetntpcfgData, plan, orCurrent, omitted]
    · have same := carries.server2 omitted
      rw [← orEmpty_eq_currentText_iff, ← same]
      simp [buildSetntpcfgData, plan, orCurrent, omitted]
  · rintro ⟨keepable1, keepable2⟩
    refine { server1 := fun omitted => ?_, server2 := fun omitted => ?_
             enabled := fun omitted => ?_ }
    · rw [← orEmpty_eq_currentText_iff.mpr (keepable1 omitted)]
      simp [buildSetntpcfgData, plan, orCurrent, omitted]
    · rw [← orEmpty_eq_currentText_iff.mpr (keepable2 omitted)]
      simp [buildSetntpcfgData, plan, orCurrent, omitted]
    · rw [ne_eq, enabled_plan_eq_none_iff, not_and] at known
      rcases Option.ne_none_iff_exists'.mp (known omitted) with ⟨enabled, has⟩
      refine ⟨enabled, has, ?_⟩
      simp [buildSetntpcfgData, plan, omitted, has]

theorem writesOnce_iff (known : Differs params bmc.state →
      (plan bmc.state params).1.enabled ≠ none) :
    WritesOnce (accepting storage endpoint) params bmc ↔
      (Differs params bmc.state → (params.server1 = none → bmc.state.server1.Keepable) ∧
        (params.server2 = none → bmc.state.server2.Keepable)) := by
  by_cases differs : Differs params bmc.state
  · have written := main_written storage endpoint differs (known differs)
    rw [WritesOnce, written]
    simp only [Bmc.written, List.append_cancel_left_eq, List.cons.injEq, and_true]
    constructor
    · intro once _
      rcases once _ rfl with none' | ⟨data, rfl, carries⟩
      · simp at none'
      · exact (carries_iff (known differs)).mp carries
    · intro keepable report _
      exact .inr ⟨_, rfl, (carries_iff (known differs)).mpr (keepable differs)⟩
  · refine iff_of_true ?_ (fun differs' => absurd differs' differs)
    intro report _
    left
    rw [main_unchanged differs]

theorem converges : Converges (accepting storage endpoint) params bmc := by
  intro report ok
  by_cases differs : Differs params bmc.state
  · by_cases unknown : (plan bmc.state params).1.enabled = none
    · rw [main_refused differs unknown] at ok
      cases ok
    · rw [main_written storage endpoint differs unknown]
      dsimp only
      rw [main_unchanged not_differs_written]
      exact ⟨_, rfl, rfl, rfl⟩
  · rw [main_unchanged differs]
    dsimp only
    rw [main_unchanged differs]
    exact ⟨_, rfl, rfl, rfl⟩

end Runs

/-- For every record, all options and every way in which the BMC reads values other than texts
back: check mode predicts the real run, the real run keeps what it is not told to change and the
run after it has nothing to do, exactly when a run that has something to change knows the enable
state and finds no false value but the empty text in a server field that is not given. -/
theorem keepsPromise_iff (storage : Storage) (endpoint : String) (params : Params) (bmc : Bmc) :
    KeepsPromise (accepting storage endpoint) params bmc ↔
      (Differs params (decodeNtpState (firstRecord bmc.records)) →
        (params.enabled = none → getField (firstRecord bmc.records) "NTP_STATUS" ≠ .none) ∧
        (params.server1 = none →
          (getField (firstRecord bmc.records) "SERVER_NAME1").Keepable) ∧
        (params.server2 = none →
          (getField (firstRecord bmc.records) "SERVER_NAME2").Keepable)) := by
  have known_iff : (plan bmc.state params).1.enabled ≠ none ↔
      (params.enabled = none → getField (firstRecord bmc.records) "NTP_STATUS" ≠ .none) := by
    rw [ne_eq, enabled_plan_eq_none_iff, Bmc.state, enabled_decode_eq_none_iff, not_and]
  constructor
  · intro promise differs
    have known := predicts_iff.mp promise.predicts
    refine ⟨known_iff.mp (known differs), ?_⟩
    exact (writesOnce_iff known).mp promise.writesOnce differs
  · intro condition
    have known : Differs params bmc.state → (plan bmc.state params).1.enabled ≠ none :=
      fun differs => known_iff.mpr (condition differs).1
    exact {
      predicts := predicts_iff.mpr known
      writesOnce := (writesOnce_iff known).mpr fun differs => (condition differs).2
      converges := converges }

def verbatim : Storage where
  stored := id
  stored_str _ := rfl

/-- Without `NTP_STATUS`, check mode announces a change the real run refuses; and a server name
that is the number zero is written as an empty text. -/
theorem keepsPromise_fails_unknown_and_zero :
    ¬ KeepsPromise (accepting verbatim "192.0.2.10:443") { server2 := some "203.0.113.5" }
      { records := [(OrderedDict.empty.set "SERVER_NAME1" (.str "pool.ntp.org")).set
          "SERVER_NAME2" (.str "192.0.2.11")] } ∧
    ¬ KeepsPromise (accepting verbatim "192.0.2.10:443") { server2 := some "203.0.113.5" }
      { records := [(OrderedDict.empty.set "SERVER_NAME1" (.int 0)).set
          "NTP_STATUS" (.int 1)] } := by
  constructor
  · intro promise
    rcases (promise.predicts true ⟨.str "pool.ntp.org", .str "203.0.113.5", none⟩).mp
      ⟨_, rfl, by decide, by decide⟩ with ⟨report, ok, -⟩
    cases ok
  · intro promise
    rcases promise.writesOnce _ rfl with silent | ⟨data, written, carries⟩
    · cases silent
    · cases written
      have kept := carries.server1 rfl
      revert kept
      decide

end Asmb8Ikvm.Ntp

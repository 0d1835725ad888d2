import Asmb8Ikvm.Ipmi.Control

/-!
# What comes of an IPMI task

A run in check mode foretells the run that acts. A failed run tells what its last
call came to, and only there can it have changed anything. On a BMC that reads
back what it was told, a second run of a task that sets a state has nothing to do.
-/

namespace Asmb8Ikvm.Ipmi

open PyText Interaction

section Statements

/-- The calls that command the BMC. -/
def Mutates : Call → Prop
  | .connect .. => False
  | .getPower => False
  | .setPower .. => True
  | .getBootdev => False
  | .setBootdev .. => True
  | .resetBmc => True
  | .rawCommand .. => True
  | .setIdentify .. => True

/-- The result in check mode promises all of the real one but what is observed at last. -/
def Agrees (promised real : Exit) : Prop :=
  { real with observed := promised.observed } = promised

/-- The name under which the client reports a call. -/
def Call.operation : Call → String
  | .connect .. => "ipmi_connect"
  | .getPower => "get_power"
  | .setPower .. => "set_power"
  | .getBootdev => "get_bootdev"
  | .setBootdev .. => "set_bootdev"
  | .resetBmc => "reset_bmc"
  | .rawCommand .. => "reset_bmc"
  | .setIdentify .. => "set_identify"

def raisedOf {α : Type} : Except Raised α → Option Raised
  | .ok _ => none
  | .error raised => some raised

/-- The exception that a call was answered with. -/
def Call.raised : (request : Call) → request.Answer → Option Raised
  | .connect .., answer => raisedOf answer
  | .getPower, answer => raisedOf answer
  | .setPower .., answer => raisedOf answer
  | .getBootdev, answer => raisedOf answer
  | .setBootdev .., answer => raisedOf answer
  | .resetBmc, answer => raisedOf answer
  | .rawCommand .., answer => raisedOf answer
  | .setIdentify .., answer => raisedOf answer

/-- An exception of `pyghmi` that says that the wait for a power state was given up. -/
def Raised.WaitGivenUp : Raised → Prop
  | .unsupportedFunctionality text => isIn setPowerWaitTimeoutMessage.toList text.toList = true
  | .pyghmiException text => isIn setPowerWaitTimeoutMessage.toList text.toList = true
  | .other _ => False

/-- What the failure of a task tells about the call it comes from. It is indeterminate exactly
when a power command was accepted and its effect was not seen in time. -/
def Told (client : IpmiClient) (request : Call) (answer : request.Answer) : Failure → Prop
  | .ikvm error => error.endpoint = some client.endpoint ∧
      error.operation = some request.operation ∧ error.secrets = client.knownSecrets ∧
      (error.indeterminate = true ↔ request.operation = "set_power" ∧
        ∃ raised, request.raised answer = some raised ∧ raised.WaitGivenUp)
  | .uncaught message => request.raised answer = some (.other message)
  | .refused _ => False
  | .missingLibrary _ => False

/-- The refusals that no call precedes. -/
def Refusal (hasPyghmi : Bool) (task : Task) (failure : Failure) : Prop :=
  hasPyghmi = false ∧ failure = .missingLibrary "pyghmi" ∨
    (∃ device uefi, task = .boot device uefi true ∧
      failure = .ikvm { errorClass := .unsupportedCapability,
                        message := Boot.persistentRejectedMessage,
                        operation := some "asmb8_boot" }) ∨
    ∃ state duration message, task = .identify state duration ∧
      Identify.validateDuration state duration = some message ∧ failure = .refused message

end Statements

section Client

variable (client : IpmiClient)

theorem only_requirePyghmi (hasPyghmi : Bool) : (requirePyghmi hasPyghmi).Only (¬Mutates ·) := by
  cases hasPyghmi <;> trivial

theorem only_rejectPersistent (persistent : Bool) :
    (Boot.rejectPersistent persistent).Only (¬Mutates ·) := by
  cases persistent <;> trivial

theorem only_connect : client.connect.Only (¬Mutates ·) :=
  ⟨id, fun _ => Prog.only_ofExcept _⟩

theorem only_getPowerState : client.getPowerState.Only (¬Mutates ·) :=
  ⟨id, fun _ => Prog.only_ofExcept _⟩

theorem only_getBootDevice : client.getBootDevice.Only (¬Mutates ·) :=
  ⟨id, fun _ => Prog.only_ofExcept _⟩

theorem actsLast_setPowerState (state : String) (wait : Wait) :
    (client.setPowerState state wait).ActsLast Mutates :=
  Prog.actsLast_call_ofExcept trivial

theorem actsLast_setBootDevice (device : String) (persist uefiboot : Bool) :
    (client.setBootDevice device persist uefiboot).ActsLast Mutates :=
  Prog.actsLast_call_ofExcept trivial

theorem actsLast_resetBmc (mode : String) : (client.resetBmc mode).ActsLast Mutates := by
  unfold IpmiClient.resetBmc
  split_ifs
  · exact Prog.actsLast_call_ofExcept trivial
  · exact Prog.actsLast_call_ofExcept trivial

theorem actsLast_setIdentify (on : Bool) (duration : Option ℤ) :
    (client.setIdentify on duration).ActsLast Mutates :=
  Prog.actsLast_call_ofExcept trivial

end Client

section Blame

variable {client : IpmiClient} {refusal : Failure → Prop} {α : Type}

theorem told_error {request : Call} {answer : request.Answer} {errorClass : ErrorClass}
    {message : String} (notPower : request.operation ≠ "set_power") :
    Told client request answer (.ikvm (client.error errorClass request.operation message)) :=
  ⟨rfl, rfl, rfl, by simp [IpmiClient.error, notPower]⟩

theorem told_caught {request : Call} {answer : request.Answer} {raised : Raised}
    {classify : String → IkvmError} (raises : request.raised answer = some raised)
    (told : ∀ text, raised = .unsupportedFunctionality text ∨ raised = .pyghmiException text →
      Told client request answer (.ikvm (classify text))) :
    Told client request answer (IpmiClient.caught classify raised) := by
  cases raised with
  | unsupportedFunctionality text => exact told text (.inl rfl)
  | pyghmiException text => exact told text (.inr rfl)
  | other text => exact raises

theorem told_accepted {request : Call} {answer : request.Answer} {rejection : String}
    {response : Response} {failure : Failure} (notPower : request.operation ≠ "set_power")
    (rejected : client.accepted request.operation rejection response = .error failure) :
    Told client request answer failure := by
  unfold IpmiClient.accepted at rejected
  split at rejected
  · cases rejected
    exact told_error notPower
  · cases rejected

theorem told_setPowerError {state text : String} {wait : Wait} {raised : Raised}
    (same : raised = .unsupportedFunctionality text ∨ raised = .pyghmiException text) :
    Told client (.setPower state wait) (.error raised : Except Raised Response)
      (.ikvm (client.setPowerError state text)) := by
  have givenUp : raised.WaitGivenUp ↔
      isIn setPowerWaitTimeoutMessage.toList text.toList = true := by
    rcases same with rfl | rfl <;> rfl
  unfold IpmiClient.setPowerError
  split_ifs with waited
  · refine ⟨rfl, rfl, rfl, fun _ => ⟨rfl, raised, rfl, givenUp.mpr waited⟩, fun _ => rfl⟩
  · refine ⟨rfl, rfl, rfl, fun indeterminate => (nomatch indeterminate), ?_⟩
    rintro ⟨-, _, raises, isGivenUp⟩
    cases raises
    exact absurd (givenUp.mp isGivenUp) waited

theorem blames_connect : client.connect.Blames (Told client) refusal := by
  rintro (raised | ⟨⟩)
  · refine Prog.blames_ofExcept ?_
    rintro _ ⟨⟩
    exact told_caught rfl fun _ _ => told_error (by simp [Call.operation])
  · trivial

theorem blames_getPowerState : client.getPowerState.Blames (Told client) refusal := by
  rintro (raised | response)
  · refine Prog.blames_ofExcept ?_
    rintro _ ⟨⟩
    exact told_caught rfl fun _ _ => told_error (by simp [Call.operation])
  · trivial

theorem blames_setPowerState {state : String} {wait : Wait} :
    (client.setPowerState state wait).Blames (Told client) refusal := by
  rintro (raised | response)
  · refine Prog.blames_ofExcept ?_
    rintro _ ⟨⟩
    exact told_caught rfl fun _ same => told_setPowerError same
  · trivial

theorem blames_getBootDevice : client.getBootDevice.Blames (Told client) refusal := by
  rintro (raised | response)
  · refine Prog.blames_ofExcept ?_
    rintro _ ⟨⟩
    exact told_caught rfl fun _ _ => told_error (by simp [Call.operation])
  · trivial

theorem blames_setBootDevice {device : String} {persist uefiboot : Bool} :
    (client.setBootDevice device persist uefiboot).Blames (Told client) refusal := by
  rintro (raised | response)
  · refine Prog.blames_ofExcept ?_
    rintro _ ⟨⟩
    exact told_caught rfl fun _ _ => told_error (by simp [Call.operation])
  · refine Prog.blames_ofExcept fun failure rejected => ?_
    exact told_accepted (by simp [Call.operation]) rejected

theorem blames_resetBmc {mode : String} :
    (client.resetBmc mode).Blames (Told client) refusal := by
  unfold IpmiClient.resetBmc
  split_ifs
  · rintro (raised | ⟨⟩)
    · refine Prog.blames_ofExcept ?_
      rintro _ ⟨⟩
      exact told_caught rfl fun _ _ => told_error (by simp [Call.operation])
    · trivial
  · rintro (raised | response)
    · refine Prog.blames_ofExcept ?_
      rintro _ ⟨⟩
      exact told_caught rfl fun _ _ => told_error (by simp [Call.operation])
    · refine Prog.blames_ofExcept fun failure rejected => ?_
      cases accepts : client.accepted "reset_bmc" ("IPMI " ++ mode ++ " reset was rejected: ")
          (response.getD .empty) with
      | ok response' =>
          change (client.accepted _ _ _ >>= fun accepted => pure _) = _ at rejected
          rw [accepts] at rejected
          cases rejected
      | error failure' =>
          change (client.accepted _ _ _ >>= fun accepted => pure _) = _ at rejected
          rw [accepts] at rejected
          cases rejected
          exact told_accepted (by simp [Call.operation]) accepts

theorem blames_setIdentify {on : Bool} {duration : Option ℤ} :
    (client.setIdentify on duration).Blames (Told client) refusal := by
  rintro (raised | ⟨⟩)
  · refine Prog.blames_ofExcept ?_
    rintro _ ⟨⟩
    cases raised with
    | unsupportedFunctionality text => exact told_error (by simp [Call.operation])
    | pyghmiException text => exact told_error (by simp [Call.operation])
    | other text => rfl
  · trivial

end Blame

section Modules

/-- What the parts of a planned module keep to. -/
structure KeepsTo {ι : Type} (client : IpmiClient) (hasPyghmi : Bool) (task : Task)
    (look : Script (Bool × ι)) (report : Bool → ι → Exit) (act : ι → Script Exit) : Prop where
  quiet : look.Only (¬Mutates ·)
  acts : ∀ seen, (act seen).ActsLast Mutates
  reports : ∀ changed seen, (report changed seen).changed = changed
  agrees : ∀ seen, (act seen).Yields (Agrees (report true seen))
  looksBlame : look.Blames (Told client) (Refusal hasPyghmi task)
  actsBlame : ∀ seen refusal, (act seen).Blames (Told client) refusal

variable {client : IpmiClient} {hasPyghmi : Bool}

theorem KeepsTo.changes {ι : Type} {task : Task} {look : Script (Bool × ι)}
    {report : Bool → ι → Exit} {act : ι → Script Exit}
    (keeps : KeepsTo client hasPyghmi task look report act) (seen : ι) :
    (act seen).Yields (Exit.changed · = true) := by
  refine (keeps.agrees seen).mono fun real agrees => ?_
  have same : { real with observed := (report true seen).observed } = report true seen := agrees
  calc real.changed = { real with observed := (report true seen).observed }.changed := rfl
    _ = (report true seen).changed := congrArg Exit.changed same
    _ = true := keeps.reports true seen

theorem Power.keepsTo (state : PowerState) (waitTimeout : ℤ) :
    KeepsTo client hasPyghmi (.power state waitTimeout) (look client state hasPyghmi)
      (report client state) (act client state waitTimeout) where
  quiet := (only_requirePyghmi hasPyghmi).bind fun _ => (only_connect client).bind fun _ =>
    (only_getPowerState client).bind fun _ => trivial
  acts _ := (actsLast_setPowerState client _ _).map
  reports _ _ := rfl
  agrees _ := .bind fun _ => rfl
  looksBlame := by
    cases hasPyghmi with
    | false => exact .inl ⟨rfl, rfl⟩
    | true => exact blames_connect.bind fun _ _ => blames_getPowerState.bind fun _ _ => trivial
  actsBlame _ _ := blames_setPowerState.bind fun _ _ => trivial

theorem Boot.keepsTo (device : BootDevice) (uefi persistent : Bool) :
    KeepsTo client hasPyghmi (.boot device uefi persistent)
      (look client device uefi persistent hasPyghmi) (report client device uefi)
      (act client device uefi) where
  quiet := by
    exact (only_requirePyghmi hasPyghmi).bind fun _ => (only_rejectPersistent persistent).bind
      fun _ => (only_connect client).bind fun _ => (only_getBootDevice client).bind fun _ => trivial
  acts _ := (actsLast_setBootDevice client _ _ _).map
  reports _ _ := rfl
  agrees _ := .bind fun _ => rfl
  looksBlame := by
    cases hasPyghmi with
    | false => exact .inl ⟨rfl, rfl⟩
    | true =>
        cases persistent with
        | true => exact .inr (.inl ⟨device, uefi, rfl, rfl⟩)
        | false => exact blames_connect.bind fun _ _ => blames_getBootDevice.bind fun _ _ => trivial
  actsBlame _ _ := blames_setBootDevice.bind fun _ _ => trivial

theorem Reset.keepsTo (mode : ResetMode) :
    KeepsTo client hasPyghmi (.reset mode) (look hasPyghmi) (report client mode)
      (act client mode) where
  quiet := (only_requirePyghmi hasPyghmi).bind fun _ => trivial
  acts _ := Prog.ActsLast.bind (only_connect client) fun _ => (actsLast_resetBmc client _).map
  reports _ _ := rfl
  agrees _ := .bind fun _ => .bind fun _ => rfl
  looksBlame := by
    cases hasPyghmi with
    | false => exact .inl ⟨rfl, rfl⟩
    | true => trivial
  actsBlame _ _ := blames_connect.bind fun _ _ => blames_resetBmc.bind fun _ _ => trivial

theorem Identify.keepsTo (state : IdentifyState) (duration : Option ℤ) :
    KeepsTo client hasPyghmi (.identify state duration) (look state duration hasPyghmi)
      (report client state duration) (act client state duration) where
  quiet := by
    refine (only_requirePyghmi hasPyghmi).bind fun _ => ?_
    cases validateDuration state duration <;> trivial
  acts _ := Prog.ActsLast.bind (only_connect client) fun _ => (actsLast_setIdentify client _ _).map
  reports _ _ := rfl
  agrees _ := .bind fun _ => .bind fun _ => rfl
  looksBlame := by
    cases hasPyghmi with
    | false => exact .inl ⟨rfl, rfl⟩
    | true =>
        cases refuses : validateDuration state duration with
        | none =>
            unfold look
            simp only [refuses]
            trivial
        | some message =>
            unfold look
            simp only [refuses]
            exact .inr (.inr ⟨state, duration, message, rfl, refuses, rfl⟩)
  actsBlame _ _ := blames_connect.bind fun _ _ => blames_setIdentify.bind fun _ _ => trivial

end Modules

section Results

variable {σ : Type} (perform : (request : Call) → σ → request.Answer × σ) (client : IpmiClient)
  (hasPyghmi : Bool) (task : Task) (world : σ)

theorem main_keepsTo : ∃ (ι : Type) (look : Script (Bool × ι)) (report : Bool → ι → Exit)
    (act : ι → Script Exit), KeepsTo client hasPyghmi task look report act ∧
      ∀ check, task.main client hasPyghmi check = .planned look check report act := by
  cases task with
  | power state waitTimeout => exact ⟨_, _, _, _, Power.keepsTo state waitTimeout, fun _ => rfl⟩
  | boot device uefi persistent =>
      exact ⟨_, _, _, _, Boot.keepsTo device uefi persistent, fun _ => rfl⟩
  | reset mode => exact ⟨_, _, _, _, Reset.keepsTo mode, fun _ => rfl⟩
  | identify state duration => exact ⟨_, _, _, _, Identify.keepsTo state duration, fun _ => rfl⟩

/-- A run in check mode foretells the run that acts. -/
theorem check_foretells :
    Foretells Mutates Exit.changed Agrees
      (exec perform (task.main client hasPyghmi true) world)
      (exec perform (task.main client hasPyghmi false) world) := by
  rcases main_keepsTo client hasPyghmi task with ⟨ι, look, report, act, keeps, planned⟩
  rw [planned, planned]
  exact foretells_planned keeps.quiet keeps.acts keeps.reports keeps.agrees world

/-- A task that fails has made no call and refuses its parameters, or its failure tells what its
last call came to; all calls before that one only read. -/
theorem failure_told (check : Bool) {failure : Failure}
    (fails : (exec perform (task.main client hasPyghmi check) world).2.1 = .error failure) :
    let trace := (exec perform (task.main client hasPyghmi check) world).1
    trace = [] ∧ Refusal hasPyghmi task failure ∨
      ∃ before moment, trace = before ++ [moment] ∧
        (∀ earlier ∈ before, ¬Mutates earlier.request) ∧
        Told client moment.request (perform moment.request moment.world).1 failure := by
  rcases main_keepsTo client hasPyghmi task with ⟨ι, look, report, act, keeps, planned⟩
  have blames : (task.main client hasPyghmi check).Blames (Told client)
      (Refusal hasPyghmi task) := by
    rw [planned]
    exact keeps.looksBlame.planned keeps.actsBlame
  rcases blames.exec fails with nothing | ⟨before, moment, split, told⟩
  · exact .inl nothing
  · have silent : ∀ earlier ∈ (exec perform (task.main client hasPyghmi check) world).1.dropLast,
        ¬Mutates earlier.request := by
      rw [planned]
      exact quiet_dropLast_planned keeps.quiet keeps.acts check
    rw [split, List.dropLast_concat] at silent
    exact .inr ⟨before, moment, split, silent, told⟩

/-- A BMC that accepts a session and then refuses to be read. -/
def refusing : (request : Call) → Unit → request.Answer × Unit
  | .connect .., _ => (.ok (), ())
  | .getPower, _ => (.error (.pyghmiException "insufficient privilege"), ())
  | .setPower .., _ => (.error (.other "closed"), ())
  | .getBootdev, _ => (.error (.other "closed"), ())
  | .setBootdev .., _ => (.error (.other "closed"), ())
  | .resetBmc, _ => (.error (.other "closed"), ())
  | .rawCommand .., _ => (.error (.other "closed"), ())
  | .setIdentify .., _ => (.error (.other "closed"), ())

/-- A BMC that takes a power command, and a wait for the new state that is given up. -/
def slow : (request : Call) → Unit → request.Answer × Unit
  | .connect .., _ => (.ok (), ())
  | .getPower, _ => (.ok (OrderedDict.empty.set "powerstate" (.str "off")), ())
  | .setPower .., _ => (.error (.pyghmiException setPowerWaitTimeoutMessage), ())
  | .getBootdev, _ => (.error (.other "closed"), ())
  | .setBootdev .., _ => (.error (.other "closed"), ())
  | .resetBmc, _ => (.error (.other "closed"), ())
  | .rawCommand .., _ => (.error (.other "closed"), ())
  | .setIdentify .., _ => (.error (.other "closed"), ())

/-- A read that fails, and a power command whose effect is not seen. -/
theorem failure_told_refused :
    let client := IpmiClient.mk "10.0.0.5" defaultIpmiPort "admin" "secret"
    let main := Task.main client true false (.power .on 60)
    (∃ failure, (exec refusing main ()).2.1 = .error failure ∧
      ((exec refusing main ()).1 = [] ∧ Refusal true (.power .on 60) failure ∨
        ∃ before moment, (exec refusing main ()).1 = before ++ [moment] ∧
          (∀ earlier ∈ before, ¬Mutates earlier.request) ∧
          Told client moment.request (refusing moment.request moment.world).1 failure)) ∧
    ∃ error, (exec slow main ()).2.1 = .error (.ikvm error) ∧ error.indeterminate = true ∧
      ((exec slow main ()).1 = [] ∧ Refusal true (.power .on 60) (.ikvm error) ∨
        ∃ before moment, (exec slow main ()).1 = before ++ [moment] ∧
          (∀ earlier ∈ before, ¬Mutates earlier.request) ∧
          Told client moment.request (slow moment.request moment.world).1 (.ikvm error)) :=
  ⟨⟨_, rfl, failure_told refusing _ true (.power .on 60) () false rfl⟩,
    ⟨_, rfl, rfl, failure_told slow _ true (.power .on 60) () false rfl⟩⟩

end Results

section Repetition

variable {σ : Type} {perform : (request : Call) → σ → request.Answer × σ}

/-- A BMC that nothing but commands changes, and that reads back what it was told: a power state
that was waited for, and a boot device. -/
structure ReadsBack (perform : (request : Call) → σ → request.Answer × σ) : Prop where
  idle : ∀ request world, ¬Mutates request → (perform request world).2 = world
  powerStates : ∀ world response,
    (perform .getPower world).1 = (.ok response : Except Raised Response) →
      response.get? "powerstate" = some (.str "on") ∨ response.get? "powerstate" = some (.str "off")
  setPower : ∀ state timeout world observed response, state = "on" ∨ state = "off" → timeout ≠ 0 →
    (perform (.setPower state (.seconds timeout)) world).1 =
      (.ok observed : Except Raised Response) →
    (perform .getPower (perform (.setPower state (.seconds timeout)) world).2).1 =
      (.ok response : Except Raised Response) →
    response.get? "powerstate" = some (.str state)
  setBootdev : ∀ device uefiboot world observed response,
    (perform (.setBootdev device false uefiboot) world).1 =
      (.ok observed : Except Raised Response) → observed.get? "error" = none →
    (perform .getBootdev (perform (.setBootdev device false uefiboot) world).2).1 =
      (.ok response : Except Raised Response) →
    response.get? "bootdev" = some (.str device) ∧
      (response.get? "uefimode" = none ∨ response.get? "uefimode" = some (.bool uefiboot))

/-- The tasks that set a state which can be read back. -/
def Task.Settles : Task → Prop
  | .power .on waitTimeout => waitTimeout ≠ 0
  | .power .off waitTimeout => waitTimeout ≠ 0
  | .power _ _ => False
  | .boot _ _ _ => True
  | .reset _ => False
  | .identify _ _ => False

/-- The tasks that act whenever they are run. -/
def Task.Repeats : Task → Prop
  | .power state _ => state ≠ .on ∧ state ≠ .off
  | .boot _ _ _ => False
  | .reset _ => True
  | .identify _ _ => True

theorem mapError_eq_ok {α : Type} {rename : Raised → Failure} {answer : Except Raised α} {value : α}
    (mapped : answer.mapError rename = .ok value) : answer = .ok value := by
  cases answer with
  | ok value' =>
      cases mapped
      rfl
  | error raised => cases mapped

theorem getPowerState_ok {client : IpmiClient} {world : σ} {response : Response}
    (ends : (exec perform client.getPowerState world).2.1 = .ok response) :
    (perform .getPower world).1 = (.ok response : Except Raised Response) := by
  rw [IpmiClient.getPowerState, exec_call_ofExcept] at ends
  exact mapError_eq_ok ends

theorem getBootDevice_ok {client : IpmiClient} {world : σ} {response : Response}
    (ends : (exec perform client.getBootDevice world).2.1 = .ok response) :
    (perform .getBootdev world).1 = (.ok response : Except Raised Response) := by
  rw [IpmiClient.getBootDevice, exec_call_ofExcept] at ends
  exact mapError_eq_ok ends

theorem setPowerState_ok {client : IpmiClient} {state : String} {wait : Wait} {world : σ}
    {response : Response}
    (ends : (exec perform (client.setPowerState state wait) world).2.1 = .ok response) :
    (perform (.setPower state wait) world).1 = (.ok response : Except Raised Response) := by
  rw [IpmiClient.setPowerState, exec_call_ofExcept] at ends
  exact mapError_eq_ok ends

theorem setPowerState_world {client : IpmiClient} {state : String} {wait : Wait} {world : σ} :
    (exec perform (client.setPowerState state wait) world).2.2 =
      (perform (.setPower state wait) world).2 := by
  rw [IpmiClient.setPowerState, exec_call_ofExcept]

theorem setBootDevice_world {client : IpmiClient} {device : String} {persist uefiboot : Bool}
    {world : σ} : (exec perform (client.setBootDevice device persist uefiboot) world).2.2 =
      (perform (.setBootdev device persist uefiboot) world).2 := by
  rw [IpmiClient.setBootDevice, exec_call_ofExcept]

theorem setBootDevice_ok {client : IpmiClient} {device : String} {persist uefiboot : Bool}
    {world : σ} {response : Response}
    (ends : (exec perform (client.setBootDevice device persist uefiboot) world).2.1 =
      .ok response) :
    (perform (.setBootdev device persist uefiboot) world).1 =
      (.ok response : Except Raised Response) ∧ response.get? "error" = none := by
  rw [IpmiClient.setBootDevice, exec_call_ofExcept] at ends
  revert ends
  dsimp only
  rcases (perform (.setBootdev device persist uefiboot) world).1 with raised | response' <;>
    intro ends
  · cases ends
  · change client.accepted _ _ response' = _ at ends
    unfold IpmiClient.accepted at ends
    split at ends
    · cases ends
    · cases ends
      exact ⟨rfl, ‹_›⟩

/-- A plan is made on the state that the BMC reads back. -/
theorem Power.look_ok (bmc : ReadsBack perform) {client : IpmiClient} {state : PowerState}
    {hasPyghmi : Bool} {world : σ} {planned : Bool × Response}
    (ends : (exec perform (look client state hasPyghmi) world).2.1 = .ok planned) :
    (perform .getPower world).1 = (.ok planned.2 : Except Raised Response) ∧
      planned.1 = plan state planned.2 := by
  rcases exec_quiet_bind_ok (only_requirePyghmi hasPyghmi) bmc.idle ends with ⟨-, -, connects⟩
  rcases exec_quiet_bind_ok (only_connect client) bmc.idle connects with ⟨-, -, further⟩
  rcases exec_quiet_bind_ok (only_getPowerState client) bmc.idle further with ⟨response, reads, ⟨⟩⟩
  exact ⟨getPowerState_ok reads, rfl⟩

theorem Boot.look_ok (bmc : ReadsBack perform) {client : IpmiClient} {device : BootDevice}
    {uefi persistent hasPyghmi : Bool} {world : σ} {planned : Bool × Response}
    (ends : (exec perform (look client device uefi persistent hasPyghmi) world).2.1 =
      .ok planned) :
    (perform .getBootdev world).1 = (.ok planned.2 : Except Raised Response) ∧
      planned.1 = plan device uefi planned.2 := by
  rcases exec_quiet_bind_ok (only_requirePyghmi hasPyghmi) bmc.idle ends with ⟨-, -, checks⟩
  rcases exec_quiet_bind_ok (only_rejectPersistent persistent) bmc.idle checks
    with ⟨-, -, connects⟩
  rcases exec_quiet_bind_ok (only_connect client) bmc.idle connects with ⟨-, -, further⟩
  rcases exec_quiet_bind_ok (only_getBootDevice client) bmc.idle further with ⟨response, reads, ⟨⟩⟩
  exact ⟨getBootDevice_ok reads, rfl⟩

theorem Power.settles (bmc : ReadsBack perform) {client : IpmiClient} {state : PowerState}
    {waitTimeout : ℤ} {hasPyghmi : Bool} (isState : state = .on ∨ state = .off)
    (waits : waitTimeout ≠ 0) {world : σ} {seen : Response} {result : Exit}
    (ends : (exec perform (act client state waitTimeout seen) world).2.1 = .ok result)
    {planned : Bool × Response}
    (looks : (exec perform (look client state hasPyghmi)
      (exec perform (act client state waitTimeout seen) world).2.2).2.1 = .ok planned) :
    planned.1 = false := by
  rcases Power.look_ok bmc looks with ⟨reads, isPlan⟩
  rcases exec_bind_ok ends with ⟨observed, sets, -, reached⟩
  have confirmable : (if state ∈ confirmableStates then Wait.seconds waitTimeout else .no) =
      .seconds waitTimeout := if_pos (by rcases isState with rfl | rfl <;> decide)
  have isText : state.text = "on" ∨ state.text = "off" := isState.imp (congrArg _) (congrArg _)
  have reachedSet : (exec perform (act client state waitTimeout seen) world).2.2 =
      (perform (.setPower state.text (.seconds waitTimeout)) world).2 := by
    rw [← confirmable]
    exact reached.trans setPowerState_world
  rw [confirmable] at sets
  rw [reachedSet] at reads
  have back := bmc.setPower state.text waitTimeout world observed planned.2 isText waits
    (setPowerState_ok sets) reads
  rw [isPlan, plan, back]
  simp

theorem Boot.settles (bmc : ReadsBack perform) {client : IpmiClient} {device : BootDevice}
    {uefi persistent hasPyghmi : Bool} {world : σ} {seen : Response} {result : Exit}
    (ends : (exec perform (act client device uefi seen) world).2.1 = .ok result)
    {planned : Bool × Response}
    (looks : (exec perform (look client device uefi persistent hasPyghmi)
      (exec perform (act client device uefi seen) world).2.2).2.1 = .ok planned) :
    planned.1 = false := by
  rcases Boot.look_ok bmc looks with ⟨reads, isPlan⟩
  rcases exec_bind_ok ends with ⟨observed, sets, -, reached⟩
  have reachedSet : (exec perform (act client device uefi seen) world).2.2 =
      (perform (.setBootdev device.text false uefi) world).2 :=
    reached.trans setBootDevice_world
  rw [reachedSet] at reads
  rcases setBootDevice_ok sets with ⟨answered, noError⟩
  rcases bmc.setBootdev device.text uefi world observed planned.2 answered noError reads
    with ⟨isDevice, isUnset | isSet⟩
  · simp [isPlan, plan, isDevice, isUnset, isFlag]
  · simp [isPlan, plan, isDevice, isSet, isFlag]

/-- A power state other than `on` and `off` is never read back. -/
theorem Power.always (bmc : ReadsBack perform) {client : IpmiClient} {state : PowerState}
    {hasPyghmi : Bool} (noState : state ≠ .on ∧ state ≠ .off) {world : σ}
    {planned : Bool × Response}
    (ends : (exec perform (look client state hasPyghmi) world).2.1 = .ok planned) :
    planned.1 = true := by
  rcases Power.look_ok bmc ends with ⟨reads, isPlan⟩
  rw [isPlan, plan]
  rcases bmc.powerStates world planned.2 reads with isOn | isOff
  · rw [isOn]
    cases state <;> simp_all [PowerState.text]
  · rw [isOff]
    cases state <;> simp_all [PowerState.text]

theorem Reset.always {hasPyghmi : Bool} {world : σ} {planned : Bool × Unit}
    (ends : (exec perform (look hasPyghmi) world).2.1 = .ok planned) : planned.1 = true := by
  cases hasPyghmi with
  | false => cases ends
  | true =>
      cases ends
      rfl

theorem Identify.always {state : IdentifyState} {duration : Option ℤ} {hasPyghmi : Bool} {world : σ}
    {planned : Bool × Unit}
    (ends : (exec perform (look state duration hasPyghmi) world).2.1 = .ok planned) :
    planned.1 = true := by
  rcases exec_bind_ok ends with ⟨-, -, further, -⟩
  revert further
  cases validateDuration state duration with
  | some refusal => exact fun further => nomatch further
  | none =>
      intro further
      cases further
      rfl

/-- On a BMC that reads back what it was told, a second run of a task that sets a state changes
nothing; tasks that set none act again whenever they are run. -/
theorem task_repeated (bmc : ReadsBack perform) (client : IpmiClient) (hasPyghmi : Bool)
    (task : Task) (world : σ) {result : Exit}
    (ends : (exec perform (task.main client hasPyghmi false) world).2.1 = .ok result) :
    let reached := (exec perform (task.main client hasPyghmi false) world).2.2
    let again := exec perform (task.main client hasPyghmi false) reached
    (task.Settles → Idled Mutates Exit.changed reached again) ∧
      (task.Repeats → ∀ later, again.2.1 = .ok later →
        later.changed = true ∧ ∃ moment ∈ again.1, Mutates moment.request) := by
  dsimp only
  cases task with
  | power state waitTimeout =>
      have keeps := @Power.keepsTo client hasPyghmi state waitTimeout
      refine ⟨fun settles => ?_, fun repeats later laterEnds => ?_⟩
      · have isState : (state = .on ∨ state = .off) ∧ waitTimeout ≠ 0 := by
          cases state with
          | on => exact ⟨.inl rfl, settles⟩
          | off => exact ⟨.inr rfl, settles⟩
          | shutdown => exact settles.elim
          | reset => exact settles.elim
          | boot => exact settles.elim
        exact idled_planned_again keeps.quiet bmc.idle keeps.reports
          (fun _ _ acts _ looks => Power.settles bmc isState.1 isState.2 acts looks) ends
      · exact acted_planned keeps.acts keeps.changes (fun _ looks => Power.always bmc repeats looks)
          laterEnds
  | boot device uefi persistent =>
      have keeps := @Boot.keepsTo client hasPyghmi device uefi persistent
      refine ⟨fun _ => ?_, fun repeats => repeats.elim⟩
      exact idled_planned_again keeps.quiet bmc.idle keeps.reports
        (fun _ _ acts _ looks => Boot.settles bmc acts looks) ends
  | reset mode =>
      have keeps := @Reset.keepsTo client hasPyghmi mode
      refine ⟨fun settles => settles.elim, fun _ later laterEnds => ?_⟩
      exact acted_planned keeps.acts keeps.changes (fun _ looks => Reset.always looks) laterEnds
  | identify state duration =>
      have keeps := @Identify.keepsTo client hasPyghmi state duration
      refine ⟨fun settles => settles.elim, fun _ later laterEnds => ?_⟩
      exact acted_planned keeps.acts keeps.changes (fun _ looks => Identify.always looks) laterEnds

/-- A board whose power follows at once. -/
structure Board where
  powered : Bool
  device : String
  uefi : Bool
deriving DecidableEq

def Board.answers : (request : Call) → Board → request.Answer × Board
  | .connect .., board => (.ok (), board)
  | .getPower, board =>
      (.ok (OrderedDict.empty.set "powerstate"
        (.str (if board.powered then "on" else "off"))), board)
  | .setPower state _, board => (.ok .empty, { board with powered := state = "on" })
  | .getBootdev, board =>
      (.ok ((OrderedDict.empty.set "bootdev" (.str board.device)).set "uefimode"
        (.bool board.uefi)), board)
  | .setBootdev device _ uefiboot, board =>
      (.ok .empty, { board with device := device, uefi := uefiboot })
  | .resetBmc, board => (.ok (), board)
  | .rawCommand .., board => (.ok none, board)
  | .setIdentify .., board => (.ok (), board)

theorem Board.readsBack : ReadsBack Board.answers where
  idle request board quiet := by
    cases request with
    | setPower state wait => exact absurd trivial quiet
    | setBootdev device persist uefiboot => exact absurd trivial quiet
    | _ => rfl
  powerStates board response read := by
    cases read
    rw [OrderedDict.get?_set, if_pos rfl]
    cases board.powered
    · exact .inr rfl
    · exact .inl rfl
  setPower state timeout board observed response isState waits sets read := by
    cases read
    rw [OrderedDict.get?_set, if_pos rfl]
    rcases isState with rfl | rfl <;> rfl
  setBootdev device uefiboot board observed response sets noError read := by
    cases read
    rw [OrderedDict.get?_set, OrderedDict.get?_set, OrderedDict.get?_set, if_neg (by decide),
      if_pos rfl, if_pos rfl]
    exact ⟨rfl, .inr rfl⟩

theorem task_repeated_on :
    let client := IpmiClient.mk "10.0.0.5" defaultIpmiPort "admin" "secret"
    let first :=
      exec Board.answers (Task.main client true false (.power .on 60)) ⟨false, "hd", true⟩
    Idled Mutates Exit.changed first.2.2
      (exec Board.answers (Task.main client true false (.power .on 60)) first.2.2) :=
  (task_repeated Board.readsBack _ true (.power .on 60) ⟨false, "hd", true⟩ rfl).1
    (show (60 : ℤ) ≠ 0 by decide)

end Repetition

end Asmb8Ikvm.Ipmi

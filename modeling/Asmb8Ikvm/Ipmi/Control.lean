import Asmb8Ikvm.Ipmi.Client

/-!
# The modules that command the BMC over IPMI

`main` of `plugins/modules/asmb8_power.py`, `asmb8_boot.py`, `asmb8_reset.py` and
`asmb8_identify.py`. The first two read the state and act when it differs; nothing
can be read back for the other two, which always act. All four support check mode.
-/

namespace Asmb8Ikvm.Ipmi

open Interaction

section Parameters

/-- `POWER_STATES`. -/
inductive PowerState where
  | on
  | off
  | shutdown
  | reset
  | boot
deriving DecidableEq, Repr

def PowerState.text : PowerState → String
  | .on => "on"
  | .off => "off"
  | .shutdown => "shutdown"
  | .reset => "reset"
  | .boot => "boot"

/-- `BOOT_DEVICES`. -/
inductive BootDevice where
  | network
  | floppy
  | hd
  | safe
  | optical
  | setup
  | default
deriving DecidableEq, Repr

def BootDevice.text : BootDevice → String
  | .network => "network"
  | .floppy => "floppy"
  | .hd => "hd"
  | .safe => "safe"
  | .optical => "optical"
  | .setup => "setup"
  | .default => "default"

/-- `RESET_MODES`. -/
inductive ResetMode where
  | cold
  | warm
deriving DecidableEq, Repr

def ResetMode.text : ResetMode → String
  | .cold => "cold"
  | .warm => "warm"

/-- `IDENTIFY_STATES`. -/
inductive IdentifyState where
  | on
  | off
deriving DecidableEq, Repr

def IdentifyState.text : IdentifyState → String
  | .on => "on"
  | .off => "off"

/-- A task of one of the four modules, with the parameters of its own. -/
inductive Task where
  | power (state : PowerState) (waitTimeout : ℤ)
  | boot (device : BootDevice) (uefi persistent : Bool)
  | reset (mode : ResetMode)
  | identify (state : IdentifyState) (duration : Option ℤ)
deriving DecidableEq, Repr

end Parameters

section Results

/-- The entry `desired` of a receipt: a text or a dictionary. -/
inductive Desired where
  | text (value : String)
  | fields (entries : List (String × Value))
deriving DecidableEq, Repr

/-- The receipt of an operation. All other fields of a result are parameters of the task, or
repeat an entry of the receipt. -/
structure Exit where
  action : String
  endpoint : String
  changed : Bool
  previous : Option Response := none
  desired : Desired
  observed : Option Response := none

end Results

/-- `if not HAS_PYGHMI`. -/
def requirePyghmi (hasPyghmi : Bool) : Script Unit :=
  if hasPyghmi then pure () else .fail (.missingLibrary "pyghmi")

namespace Power

variable (client : IpmiClient) (state : PowerState)

/-- `_CONFIRMABLE_STATES`. -/
def confirmableStates : List PowerState := [.on, .off, .shutdown]

/-- `plan`. -/
def plan (previous : Response) : Bool :=
  previous.get? "powerstate" != some (.str state.text)

def look (hasPyghmi : Bool) : Script (Bool × Response) := do
  requirePyghmi hasPyghmi
  client.connect
  let previous ← client.getPowerState
  return (plan state previous, previous)

def report (changed : Bool) (previous : Response) : Exit where
  action := "asmb8_power." ++ state.text
  endpoint := client.endpoint
  changed := changed
  previous := some previous
  desired := .text state.text
  observed := some previous

def act (waitTimeout : ℤ) (previous : Response) : Script Exit := do
  let wait := if state ∈ confirmableStates then .seconds waitTimeout else .no
  let observed ← client.setPowerState state.text wait
  return { report client state true previous with observed := some observed }

def main (waitTimeout : ℤ) (hasPyghmi check : Bool) : Script Exit :=
  .planned (look client state hasPyghmi) check (report client state) (act client state waitTimeout)

end Power

namespace Boot

variable (client : IpmiClient) (device : BootDevice) (uefi : Bool)

/-- `_PERSISTENT_REJECTED_MESSAGE`. -/
def persistentRejectedMessage : String :=
  "asmb8_boot does not support persistent boot-order changes. The lab contract for this "
    ++ "hardware permits only one-time IPMI boot overrides; set persistent=false (the default) "
    ++ "to arm a single upcoming boot instead."

/-- `reject_persistent`. -/
def rejectPersistent (persistent : Bool) : Script Unit :=
  if persistent then
    .fail (.ikvm { errorClass := .unsupportedCapability, message := persistentRejectedMessage,
                   operation := some "asmb8_boot" })
  else pure ()

/-- `value == flag`; a boolean is an integer. -/
def isFlag (flag : Bool) : Value → Bool
  | .bool value => value == flag
  | .int value => value == if flag then 1 else 0
  | _ => false

/-- `plan`. -/
def plan (previous : Response) : Bool :=
  let observedUefi := (previous.get? "uefimode").getD (.bool uefi)
  previous.get? "bootdev" != some (.str device.text) || !isFlag uefi observedUefi

def look (persistent hasPyghmi : Bool) : Script (Bool × Response) := do
  requirePyghmi hasPyghmi
  rejectPersistent persistent
  client.connect
  let previous ← client.getBootDevice
  return (plan device uefi previous, previous)

def report (changed : Bool) (previous : Response) : Exit where
  action := "asmb8_boot"
  endpoint := client.endpoint
  changed := changed
  previous := some previous
  desired := .fields [("bootdev", .str device.text), ("uefiboot", .bool uefi),
    ("persist", .bool false)]
  observed := some previous

def act (previous : Response) : Script Exit := do
  let rawObserved ← client.setBootDevice device.text false uefi
  let observed := (rawObserved.set "persistent" (.bool false)).set "uefimode" (.bool uefi)
  return { report client device uefi true previous with observed := some observed }

def main (persistent hasPyghmi check : Bool) : Script Exit :=
  .planned (look client device uefi persistent hasPyghmi) check (report client device uefi)
    (act client device uefi)

end Boot

namespace Reset

variable (client : IpmiClient) (mode : ResetMode)

def look (hasPyghmi : Bool) : Script (Bool × Unit) := do
  requirePyghmi hasPyghmi
  return (true, ())

def report (changed : Bool) (_ : Unit) : Exit where
  action := "asmb8_reset." ++ mode.text
  endpoint := client.endpoint
  changed := changed
  desired := .text mode.text

def act (_ : Unit) : Script Exit := do
  client.connect
  let observed ← client.resetBmc mode.text
  return { report client mode true () with observed := some observed }

def main (hasPyghmi check : Bool) : Script Exit :=
  .planned (look hasPyghmi) check (report client mode) (act client mode)

end Reset

namespace Identify

variable (client : IpmiClient) (state : IdentifyState) (duration : Option ℤ)

/-- `_MINIMUM_ON_DURATION`. -/
def minimumOnDuration : ℤ := 1

/-- `validate_duration`. -/
def validateDuration : Option String :=
  match state, duration with
  | .off, some _ => some ("duration is only valid with state=on. asmb8_identify state=off always "
      ++ "turns the LED off immediately, unconditionally.")
  | .on, some seconds =>
      if seconds < minimumOnDuration then
        some ("duration must be at least " ++ toString minimumOnDuration ++ " when state=on. "
          ++ "pyghmi's underlying IPMI command treats duration=0 as 'turn off' regardless of "
          ++ "state=on, which would silently do the opposite of what was requested. Omit duration "
          ++ "entirely to turn the LED on indefinitely instead.")
      else none
  | _, none => none

def look (hasPyghmi : Bool) : Script (Bool × Unit) := do
  requirePyghmi hasPyghmi
  match validateDuration state duration with
  | some refusal => .fail (.refused refusal)
  | none => return (true, ())

def desiredFields : List (String × Value) :=
  [("state", .str state.text), ("duration", duration.elim .none .int)]

def report (changed : Bool) (_ : Unit) : Exit where
  action := "asmb8_identify." ++ state.text
  endpoint := client.endpoint
  changed := changed
  desired := .fields (desiredFields state duration)

/-- `observed=desired`. -/
def observedFields : Response :=
  (OrderedDict.empty.set "state" (.str state.text)).set "duration" (duration.elim .none .int)

def act (_ : Unit) : Script Exit := do
  client.connect
  client.setIdentify (state = .on) duration
  return { report client state duration true () with
           observed := some (observedFields state duration) }

def main (hasPyghmi check : Bool) : Script Exit :=
  .planned (look state duration hasPyghmi) check (report client state duration)
    (act client state duration)

end Identify

/-- `main` of the module of a task. -/
def Task.main (client : IpmiClient) (hasPyghmi : Bool) (check : Bool) : Task → Script Exit
  | .power state waitTimeout => Power.main client state waitTimeout hasPyghmi check
  | .boot device uefi persistent => Boot.main client device uefi persistent hasPyghmi check
  | .reset mode => Reset.main client mode hasPyghmi check
  | .identify state duration => Identify.main client state duration hasPyghmi check

end Asmb8Ikvm.Ipmi

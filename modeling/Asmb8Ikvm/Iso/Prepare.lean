import Asmb8Ikvm.Iso.Answer
import Asmb8Ikvm.Lib.Interaction
import Asmb8Ikvm.Lib.Text

/-!
# The preparation of an installer image

The tasks of the role `asmb8_autoinstall_iso` in their order. An image that is made
here erases disks without a prompt as soon as it boots, so `validate.yml` stands in
front: it refuses unless it is told that this is meant, unless the disks are named by
exactly one mechanism, and unless every name is a concrete one.

Each task is a call that answers and may fail. The controller's files are shared with
others, so what a `stat` says need not be true any more one task later.
-/

namespace Asmb8Ikvm.Iso

open PyText Interaction

abbrev Text := List Char

section Calls

/-- The variables of the role beside those of the answer. -/
structure Vars where
  source : Text
  output : Text
  force : Bool
  confirmDestructive : Scalar
  preferVendorTool : Bool
  vendorToolPath : Text
  containerRuntime : Text
  containerImage : Text
  containerMountOptions : Text
  workDir : Text
  keepWorkDir : Bool
  grubCfgOverride : Text
  answer : Answer

/-- What `stat` tells about a path. -/
structure Stat where
  «exists» : Bool
  isreg : Bool
  readable : Bool
  size : ℕ
deriving DecidableEq, Repr

/-- A task that changes files. -/
inductive Change where
  | directory (path : Text)
  | answer (dest content : Text)
  | template (src : String) (dest : Text)
  | copy (src dest : Text)
  | absent (path : Text)
deriving DecidableEq, Repr

inductive Call where
  | stat (path : Text)
  | tempfile (path : Text)
  | command (argv : List Text)
  | change (change : Change)
deriving DecidableEq, Repr

/-- A command answers with its return code, a missing program with that of the error. -/
abbrev Call.Answer : Call → Type
  | .stat _ => Option Stat
  | .tempfile _ => Option Text
  | .command _ => ℤ
  | .change _ => Bool

/-- The assertions of the role. -/
inductive Guard where
  | confirmed
  | pathsSet
  | pathsDiffer
  | sourceReadable
  | outputFree
  | oneMechanism
  | diskList
  | diskFilter
  | fileSystem
  | identity
  | onePassword
  | networkSource
  | networkStatic
  | containerRuntime
  | answerValid
  | outputWritten
deriving DecidableEq, Repr

/-- How a run ends before its end. -/
inductive Failure where
  | refused (guard : Guard)
  | failed (request : Call)
  | template
  | noTooling
deriving DecidableEq, Repr

abbrev Script := Prog Call Call.Answer Failure

def call (request : Call) : Script request.Answer :=
  .ask request

end Calls

section Guards

/-- The filter `bool`. -/
def Scalar.toBool : Scalar → Bool
  | .none => false
  | .bool value => value
  | .int value => value == 1
  | .text value => ["yes", "on", "1", "true"].any fun word => word.toList == lower value

/-- `_forbidden_disk_tokens` of the disk list. -/
def forbiddenListTokens : List String :=
  ["*", "?", "first", "any", "all", "auto", "default", "primary", "largest", "smallest", ""]

/-- `_forbidden_disk_tokens` of the disk filter. -/
def forbiddenFilterTokens : List String :=
  ["*", "?", "first", "any", "all", "auto", "default", ""]

/-- The checks a list and a filter have in common; `marks` are the characters searched for. -/
def isConcrete (tokens : List String) (marks : List Char) (value : Scalar) : Bool :=
  value.isString && strip value.string != [] &&
    !(tokens.any fun token => token.toList == strip (lower value.string)) &&
    !(value.string.any fun c => c ∈ marks)

def concreteDisk (disk : Scalar) : Bool :=
  isConcrete forbiddenListTokens [']', '*', '?', '['] disk && disk.string.head? != some '/'

def concreteProperty (value : Scalar) : Bool :=
  isConcrete forbiddenFilterTokens ['*', '?'] value

/-- `first | length > 0` and `second | length > 0` are different; a value without a length fails the
assertion. -/
def exactlyOne : Option ℕ → Option ℕ → Bool
  | some first, some second => (first != 0) != (second != 0)
  | _, _ => false

/-- `value | length > 0`. -/
def isSet (value : Scalar) : Bool :=
  value.length.any (0 < ·)

/-- What the assertion asks of the variables; the ones that ask what a task found hold here. A
condition of the task is an alternative. -/
def Guard.holds (vars : Vars) : Guard → Bool
  | .confirmed => vars.confirmDestructive.toBool
  | .pathsSet => vars.source != [] && vars.output != []
  | .pathsDiffer => vars.source != vars.output
  | .oneMechanism => exactlyOne vars.answer.diskList.length vars.answer.diskFilter.length
  | .diskList =>
      vars.answer.diskList.length == some 0 ||
        (vars.answer.diskList.length.isSome && vars.answer.diskList.elements.all concreteDisk)
  | .diskFilter =>
      vars.answer.diskFilter.length == some 0 ||
        (vars.answer.diskFilter.isMapping &&
          vars.answer.diskFilter.pairs.all (fun pair => pair.1.isString) &&
          vars.answer.diskFilter.pairs.all fun pair => concreteProperty pair.2)
  | .fileSystem =>
      ["ext4", "xfs", "zfs", "btrfs"].any fun name =>
        .text name.toList == vars.answer.diskFilesystem
  | .identity => isSet vars.answer.fqdn && isSet vars.answer.timezone
  | .onePassword =>
      exactlyOne vars.answer.rootPassword.length vars.answer.rootPasswordHashed.length
  | .networkSource =>
      ["from-dhcp", "from-answer"].any fun source =>
        .text source.toList == vars.answer.networkSource
  | .networkStatic =>
      vars.answer.networkSource != .text "from-answer".toList ||
        (isSet vars.answer.networkCidr && isSet vars.answer.networkDns &&
          isSet vars.answer.networkGateway)
  | .containerRuntime =>
      ["docker", "podman"].any fun runtime => runtime.toList == vars.containerRuntime
  | .sourceReadable => true
  | .outputFree => true
  | .answerValid => true
  | .outputWritten => true

def require (guard : Guard) (holds : Bool) : Script Unit :=
  if holds then pure () else .fail (.refused guard)

/-- Assertions about the variables, one after the other. -/
def requireAll (vars : Vars) : List Guard → Script Unit
  | [] => pure ()
  | guard :: guards => require guard (guard.holds vars) >>= fun _ => requireAll vars guards

/-- The assertions in front of the first `stat`. -/
def openingGuards : List Guard :=
  [.confirmed, .pathsSet, .pathsDiffer]

/-- The assertions about the answer and the container. -/
def answerGuards : List Guard :=
  [.oneMechanism, .diskList, .diskFilter, .fileSystem, .identity, .onePassword, .networkSource,
    .networkStatic, .containerRuntime]

/-- The task `stat`. -/
def stat (path : Text) : Script Stat := do
  let answer ← call (.stat path)
  match answer with
  | none => .fail (.failed (.stat path))
  | some found => pure found

/-- `validate.yml`. -/
def validate (vars : Vars) : Script Unit := do
  requireAll vars openingGuards
  let source ← stat vars.source
  require .sourceReadable (source.exists && source.isreg && source.readable)
  let output ← stat vars.output
  require .outputFree (!output.exists || vars.force)
  requireAll vars answerGuards

end Guards

section Tasks

def change (request : Change) : Script Unit := do
  let done ← call (.change request)
  if done then pure () else .fail (.failed (.change request))

/-- A command whose return code is looked at later. -/
def probe (argv : List Text) : Script ℤ :=
  call (.command argv)

def command (argv : List Text) : Script Unit := do
  let rc ← call (.command argv)
  if rc = 0 then pure () else .fail (.failed (.command argv))

def answerFile (work : Text) : Text :=
  work ++ "/root/answer.toml".toList

/-- `prepare_workdir.yml`. -/
def prepareWorkdir (vars : Vars) : Script Text := do
  let work ← call (.tempfile vars.workDir)
  match work with
  | none => .fail (.failed (.tempfile vars.workDir))
  | some work =>
      change (.directory (work ++ "/root".toList))
      pure work

def versionArgv (tool : Text) : List Text :=
  [tool, "--version".toList]

def validateAnswerArgv (vars : Vars) (work : Text) : List Text :=
  [vars.vendorToolPath, "validate-answer".toList, answerFile work]

/-- `render_answer.yml`, with the return code of the vendor tool. -/
def renderAnswer (vars : Vars) (work : Text) : Script ℤ :=
  match answerToml vars.answer with
  | none => .fail .template
  | some content => do
      change (.answer (answerFile work) content)
      let version ← probe (versionArgv vars.vendorToolPath)
      if version = 0 then do
        let validation ← probe (validateAnswerArgv vars work)
        require .answerValid (validation == 0)
        pure version
      else pure version

inductive Tooling where
  | none
  | container
  | vendor
deriving DecidableEq, Repr

/-- `discover_tooling.yml`: the later task overrides the earlier one. -/
def discoverTooling (vars : Vars) (version : ℤ) : Script Tooling := do
  let runtime ← probe (versionArgv vars.containerRuntime)
  let tooling := Tooling.none
  let tooling := if runtime = 0 then Tooling.container else tooling
  let tooling :=
    if version = 0 ∧ (vars.preferVendorTool ∨ runtime ≠ 0) then Tooling.vendor else tooling
  pure tooling

def prepareIsoArgv (vars : Vars) (work : Text) : List Text :=
  [vars.vendorToolPath, "prepare-iso".toList, vars.source, "--fetch-from".toList, "iso".toList,
    "--answer-file".toList, answerFile work, "--output".toList, vars.output]

/-- `prepare_with_vendor_tool.yml`. -/
def prepareWithVendorTool (vars : Vars) (work : Text) : Script Unit :=
  command (prepareIsoArgv vars work)

def containerArgv (vars : Vars) (work : Text) : List Text :=
  [vars.containerRuntime, "run".toList, "--rm".toList, "-v".toList,
    work ++ ":/work".toList ++ vars.containerMountOptions, vars.containerImage, "bash".toList,
    "/work/prepare.sh".toList]

/-- The task of `prepare_with_container.yml` that depends on a variable. -/
def copyGrubCfg (vars : Vars) (work : Text) : Script Unit :=
  if vars.grubCfgOverride ≠ [] then
    change (.copy vars.grubCfgOverride (work ++ "/root/grub.cfg".toList))
  else pure ()

/-- `prepare_with_container.yml`. -/
def prepareWithContainer (vars : Vars) (work : Text) : Script Unit := do
  change (.template "auto_installer_mode.toml.j2" (work ++ "/root/auto-installer-mode.toml".toList))
  change (.copy vars.source (work ++ "/in.iso".toList))
  copyGrubCfg vars work
  change (.template "container_prepare.sh.j2" (work ++ "/prepare.sh".toList))
  command (containerArgv vars work)
  change (.copy (work ++ "/out.iso".toList) vars.output)

/-- The preparation that the tooling stands for. -/
def prepare (vars : Vars) (work : Text) : Tooling → Script Unit
  | .vendor => prepareWithVendorTool vars work
  | .container => prepareWithContainer vars work
  | .none => .fail .noTooling

/-- The end of `main.yml`, with `cleanup_workdir.yml`. -/
def confirm (vars : Vars) (work : Text) : Script Unit := do
  let output ← stat vars.output
  require .outputWritten (output.exists && decide (0 < output.size))
  if vars.keepWorkDir then pure () else change (.absent work)

/-- `main.yml`. -/
def main (vars : Vars) : Script Unit := do
  validate vars
  let work ← prepareWorkdir vars
  let version ← renderAnswer vars work
  let tooling ← discoverTooling vars version
  prepare vars work tooling
  confirm vars work

end Tasks

end Asmb8Ikvm.Iso

import Asmb8Ikvm.Errors
import Asmb8Ikvm.Redact

/-!
# Bootstrap images

`bootstrap_image.py` and `asmb8_bootstrap_image`: the iPXE script, the tree that
is staged for `grub-mkrescue`, and the build, which judges the tool by its exit
code and then by the file at the output path.

A file at the output path says which run has written it. The build cannot see
this. It removes a file that is too large, but neither a file that is left by a
tool that fails, nor can it tell an older file from one it has built itself.
-/

namespace Asmb8Ikvm.BootstrapImage

open PyText

def networkModeStatic : String := "static"

def defaultSizeBudgetBytes : ℤ := 16 * 1024 * 1024

def requiredTools : List String := ["grub-mkrescue", "xorriso"]

def maxToolOutputExcerpt : ℕ := 4096

def kernelBasename : String := "ipxe.lkrn"

def scriptBasename : String := "script.ipxe"

/-- `_GRUB_CFG_TEMPLATE.format(...)`. -/
def grubCfg (kernelName scriptName : String) : String :=
  "set timeout=0\nset default=0\n\nmenuentry \"asmb8-bootstrap\" \x7b\n    linux16 /boot/" ++
    kernelName ++ "\n    initrd16 /boot/" ++ scriptName ++ "\n\x7d\n"

structure NetworkConfig where
  mode : String
  address : Option String := none
  netmask : Option String := none
  gateway : Option String := none
  dns : Option String := none
deriving DecidableEq, Repr

/-- `f"{value}"` of an optional string. -/
def formatOptional (value : Option String) : String :=
  value.getD "None"

def renderIpxeScript (originUrl : String) (network : NetworkConfig) : String :=
  let bringUp :=
    if network.mode = networkModeStatic then
      ["set net0/ip " ++ formatOptional network.address,
        "set net0/netmask " ++ formatOptional network.netmask,
        "set net0/gateway " ++ formatOptional network.gateway] ++
      (if given network.dns then ["set net0/dns " ++ formatOptional network.dns] else []) ++
      ["ifopen net0"]
    else ["dhcp"]
  "\n".intercalate (["#!ipxe", ""] ++ bringUp ++ ["", "chain " ++ originUrl, ""])

/-- `str(Path(text))`: empty components and dots are dropped. -/
def pathStr (text : String) : String :=
  let parts := (text.toList.splitOn '/').filter fun part => part ≠ [] ∧ part ≠ ['.']
  let root :=
    if "//".toList <+: text.toList ∧ ¬ "///".toList <+: text.toList then "//"
    else if "/".toList <+: text.toList then "/"
    else ""
  let joined := root ++ "/".intercalate (parts.map String.ofList)
  if joined = "" then "." else joined

/-- `find_tool`: `isExecutable` says of a path that it is an executable file. -/
def findTool (isExecutable : String → Bool) (which : String → Option String) (name : String)
    (explicitPath : Option String) : Option String :=
  match explicitPath with
  | some path =>
      if path ≠ "" then
        if isExecutable (pathStr path) then some (pathStr path) else none
      else which name
  | none => which name

def missingToolError (toolNames : List String) : IkvmError where
  errorClass := .unsupportedCapability
  message := "asmb8_bootstrap_image requires the following external tool(s), not found on this " ++
    "controller's PATH: " ++ ", ".intercalate toolNames ++ ". On Debian/Ubuntu, install " ++
    "grub-pc-bin (or grub-common, for a UEFI-only controller) and xorriso, e.g. " ++
    "`apt-get install grub-pc-bin xorriso`. This module never falls back to a container " ++
    "runtime or a source build -- see its own DOCUMENTATION for why a Docker-based " ++
    "alternative was considered and rejected as the default. Set " ++
    "grub_mkrescue_path/xorriso_path explicitly if either tool is installed somewhere not on " ++
    "PATH."
  operation := some "asmb8_bootstrap_image.build"

/-- The tree `_stage_directory` builds: the files with their contents. -/
def stageDirectory (ipxeLkrn : Bytes) (scriptText : String) : List (String × Bytes) :=
  [("boot/" ++ kernelBasename, ipxeLkrn),
    ("boot/" ++ scriptBasename, scriptText.toUTF8.data.toList),
    ("boot/grub/grub.cfg", (grubCfg kernelBasename scriptBasename).toUTF8.data.toList)]

/-- One run of `grub-mkrescue`: what it returns, and the file it leaves at the output path,
whole or in part, if it writes one. -/
structure ToolRun where
  returncode : ℤ
  stdout : Option String := none
  stderr : Option String := none
  written : Option Bytes := none
deriving DecidableEq, Repr

/-- The arguments of `build_bootstrap_image` other than `run_command`. -/
structure Request where
  ipxeLkrnPath : String
  scriptText : String
  outputPath : String
  sizeBudgetBytes : ℤ := defaultSizeBudgetBytes
  grubMkrescuePath : String
deriving DecidableEq, Repr

/-- What a build finds: the files at `ipxe_lkrn_path` and at the output path, the staging
directory or the exception that prevents one, and the tool. -/
structure Host where
  ipxeLkrn : Option Bytes
  prior : Option Bytes
  staging : Except Exn String
  runCommand : List String → List (String × Bytes) → ToolRun

/-- Which run a file was written by. -/
inductive Origin where
  | earlier
  | thisRun
deriving DecidableEq, Repr

structure OutputFile where
  bytes : Bytes
  origin : Origin
deriving DecidableEq, Repr

/-- The dictionary `build_bootstrap_image` returns. -/
structure Built where
  sizeBytes : ℕ
  outputPath : String
deriving DecidableEq, Repr

/-- How a build ends: its result, the run of the tool if there was one, and the file that is
at the output path afterwards. -/
structure Ended where
  result : Except Exn Built
  invoked : Option ToolRun
  output : Option OutputFile

def operationName : String := "asmb8_bootstrap_image.build"

/-- The output file that was there before. -/
def Host.priorOutput (host : Host) : Option OutputFile :=
  host.prior.map fun bytes => { bytes, origin := .earlier }

/-- The output file after the tool has run. -/
def ToolRun.output (run : ToolRun) (host : Host) : Option OutputFile :=
  match run.written with
  | some bytes => some { bytes, origin := .thisRun }
  | none => host.priorOutput

section Build

variable (table : CharTable) (reprStr : String → String) (request : Request)

def missingLkrn : Exn :=
  protocolError ("ipxe_lkrn_path " ++ reprStr request.ipxeLkrnPath ++ " does not exist or is " ++
    "not a file. This module never fetches ipxe.lkrn itself -- see its own DOCUMENTATION on " ++
    "why -- so it must already be present locally.") operationName

def toolFailed (run : ToolRun) : Exn :=
  let output := strip ((orElse run.stderr "").toList ++ '\n' :: (orElse run.stdout "").toList)
  let excerpt := redact table (String.ofList output) []
  protocolError ("grub-mkrescue exited " ++ toString run.returncode ++ ": " ++
    String.ofList (excerpt.toList.take maxToolOutputExcerpt)) operationName

def notProduced : Exn :=
  protocolError ("grub-mkrescue reported success (rc=0) but " ++ reprStr request.outputPath ++
    " was not produced.") operationName

def oversized (sizeBytes : ℕ) : Exn :=
  protocolError ("bootstrap image is " ++ toString sizeBytes ++ " bytes, exceeding the " ++
    toString request.sizeBudgetBytes ++ "-byte size budget. Refusing to leave an oversized " ++
    "'bootstrap' image in place -- a bootstrap that silently grows toward the size of a full " ++
    "installer ISO recreates exactly the iUSB-throughput problem this module exists to avoid. " ++
    "The oversized file has been removed.") operationName

/-- `build_bootstrap_image` up to `run_command`. -/
def invoke (host : Host) : Except Exn ToolRun := do
  let ipxeLkrn ←
    match host.ipxeLkrn with
    | some ipxeLkrn => .ok ipxeLkrn
    | none => .error (missingLkrn reprStr request)
  let staging ← host.staging
  .ok (host.runCommand
    [request.grubMkrescuePath, "--output=" ++ pathStr request.outputPath, staging]
    (stageDirectory ipxeLkrn request.scriptText))

/-- `build_bootstrap_image` from the return of `run_command` on. -/
def finish (host : Host) (run : ToolRun) : Ended :=
  let output := run.output host
  if run.returncode ≠ 0 then
    { result := .error (toolFailed table run), invoked := some run, output }
  else
    match output with
    | none =>
        { result := .error (notProduced reprStr request), invoked := some run, output := none }
    | some file =>
        let sizeBytes := file.bytes.length
        if request.sizeBudgetBytes < sizeBytes then
          { result := .error (oversized request sizeBytes), invoked := some run, output := none }
        else
          { result := .ok { sizeBytes, outputPath := pathStr request.outputPath }
            invoked := some run
            output := some file }

def buildBootstrapImage (host : Host) : Ended :=
  match invoke reprStr request host with
  | .error exn => { result := .error exn, invoked := none, output := host.priorOutput }
  | .ok run => finish table reprStr request host run

end Build

/-- The tool has succeeded and has written an image within the budget, which is reported. -/
def Succeeded (request : Request) (ended : Ended) (built : Built) : Prop :=
  ∃ run bytes, ended.invoked = some run ∧ run.returncode = 0 ∧ run.written = some bytes ∧
    (bytes.length : ℤ) ≤ request.sizeBudgetBytes ∧
    built = { sizeBytes := bytes.length, outputPath := pathStr request.outputPath }

/-- A build returns exactly when the tool has succeeded within the budget in this run, and a
build that fails after the tool has run leaves no file of this run. -/
structure AllOrNothing (request : Request) (ended : Ended) : Prop where
  returns : ∀ built, ended.result = .ok built ↔ Succeeded request ended built
  clean : (∃ exn, ended.result = .error exn) → ended.invoked.isSome = true →
    ∀ file, ended.output = some file → file.origin = .earlier

/-- The tool writes nothing when it fails, and when it succeeds without writing, no older file
within the budget is there. -/
structure Distinguishable (request : Request) (host : Host) (run : ToolRun) : Prop where
  failed : run.returncode ≠ 0 → run.written = none
  silent : run.returncode = 0 → run.written = none →
    ∀ bytes, host.prior = some bytes → request.sizeBudgetBytes < bytes.length

section Outcomes

variable {table : CharTable} {reprStr : String → String} {request : Request} {host : Host}
  {run : ToolRun}

theorem invoke_eq {ipxeLkrn : Bytes} {staging : String} (lkrn : host.ipxeLkrn = some ipxeLkrn)
    (staged : host.staging = .ok staging) :
    invoke reprStr request host = .ok (host.runCommand
      [request.grubMkrescuePath, "--output=" ++ pathStr request.outputPath, staging]
      (stageDirectory ipxeLkrn request.scriptText)) := by
  rw [invoke, lkrn, staged]
  rfl

theorem exists_of_invoke (invoked : invoke reprStr request host = .ok run) :
    ∃ ipxeLkrn staging, host.ipxeLkrn = some ipxeLkrn ∧ host.staging = .ok staging ∧
      run = host.runCommand
        [request.grubMkrescuePath, "--output=" ++ pathStr request.outputPath, staging]
        (stageDirectory ipxeLkrn request.scriptText) := by
  cases lkrn : host.ipxeLkrn with
  | none =>
      rw [invoke, lkrn] at invoked
      cases invoked
  | some ipxeLkrn =>
      cases staged : host.staging with
      | error exn =>
          rw [invoke, lkrn, staged] at invoked
          cases invoked
      | ok staging =>
          rw [invoke_eq lkrn staged] at invoked
          cases invoked
          exact ⟨ipxeLkrn, staging, rfl, rfl, rfl⟩

/-- A build without a run of the tool has failed and leaves what was there. -/
theorem allOrNothing_of_not_invoked (exn : Exn) :
    AllOrNothing request
      { result := .error exn, invoked := none, output := host.priorOutput } where
  returns built := by
    refine ⟨fun ok => (by cases ok), ?_⟩
    rintro ⟨run, bytes, invoked, -⟩
    cases invoked
  clean _ invoked := by cases invoked

theorem origin_priorOutput {file : OutputFile} (present : host.priorOutput = some file) :
    file.origin = .earlier := by
  rw [Host.priorOutput, Option.map_eq_some_iff] at present
  rcases present with ⟨bytes, -, rfl⟩
  rfl

theorem finish_failed (nonzero : run.returncode ≠ 0) :
    finish table reprStr request host run =
      { result := .error (toolFailed table run), invoked := some run
        output := run.output host } := by
  rw [finish]
  exact if_pos nonzero

theorem finish_missing (zero : run.returncode = 0) (missing : run.output host = none) :
    finish table reprStr request host run =
      { result := .error (notProduced reprStr request), invoked := some run, output := none } := by
  rw [finish]
  simp only [zero, missing, ne_eq, not_true_eq_false, if_false]

theorem finish_oversized {file : OutputFile} (zero : run.returncode = 0)
    (present : run.output host = some file)
    (large : request.sizeBudgetBytes < file.bytes.length) :
    finish table reprStr request host run =
      { result := .error (oversized request file.bytes.length), invoked := some run
        output := none } := by
  rw [finish]
  simp only [zero, present, large, ne_eq, not_true_eq_false, if_false, if_true]

theorem finish_accepted {file : OutputFile} (zero : run.returncode = 0)
    (present : run.output host = some file)
    (small : (file.bytes.length : ℤ) ≤ request.sizeBudgetBytes) :
    finish table reprStr request host run =
      { result := .ok
          { sizeBytes := file.bytes.length, outputPath := pathStr request.outputPath }
        invoked := some run
        output := some file } := by
  rw [finish]
  simp only [zero, present, Int.not_lt.mpr small, ne_eq, not_true_eq_false, if_false]

/-- A build that returns has found a file within the budget, and reports its size. -/
theorem exists_of_built {built : Built}
    (ok : (buildBootstrapImage table reprStr request host).result = .ok built) :
    ∃ file, (buildBootstrapImage table reprStr request host).output = some file ∧
      (file.bytes.length : ℤ) ≤ request.sizeBudgetBytes ∧
      built = { sizeBytes := file.bytes.length, outputPath := pathStr request.outputPath } := by
  revert ok
  unfold buildBootstrapImage
  split
  case h_1 => simp
  case h_2 run _ =>
    intro ok
    by_cases zero : run.returncode = 0
    · cases output : run.output host with
      | none =>
          rw [finish_missing zero output] at ok
          cases ok
      | some file =>
          by_cases large : request.sizeBudgetBytes < file.bytes.length
          · rw [finish_oversized zero output large] at ok
            cases ok
          · have small : (file.bytes.length : ℤ) ≤ request.sizeBudgetBytes := Int.not_lt.mp large
            rw [finish_accepted zero output small] at ok ⊢
            cases ok
            exact ⟨file, rfl, small, rfl⟩
    · rw [finish_failed zero] at ok
      cases ok

theorem finish_invoked : (finish table reprStr request host run).invoked = some run := by
  unfold finish
  dsimp only
  split_ifs
  · rfl
  · split
    · rfl
    · split_ifs <;> rfl

/-- A build that fails and has not succeeded within the budget is as it should be when it leaves
no file of this run. -/
theorem allOrNothing_error_iff {exn : Exn} {output : Option OutputFile}
    (unsuccessful : run.returncode = 0 → ∀ bytes, run.written = some bytes →
      request.sizeBudgetBytes < bytes.length) :
    AllOrNothing request { result := .error exn, invoked := some run, output } ↔
      ∀ file, output = some file → file.origin = .earlier := by
  refine ⟨fun whole => whole.clean ⟨exn, rfl⟩ rfl, fun clean => ?_⟩
  refine { returns := fun built => ⟨fun ok => (by cases ok), ?_⟩, clean := fun _ _ => clean }
  rintro ⟨run', bytes, invoked, zero, written, small, -⟩
  cases invoked
  have large := unsuccessful zero bytes written
  omega

theorem allOrNothing_failed_iff (nonzero : run.returncode ≠ 0) :
    AllOrNothing request (finish table reprStr request host run) ↔ run.written = none := by
  rw [finish_failed nonzero, allOrNothing_error_iff fun zero => absurd zero nonzero]
  constructor
  · intro clean
    cases written : run.written with
    | none => rfl
    | some bytes =>
        have ofThisRun := clean { bytes, origin := .thisRun } (by rw [ToolRun.output, written])
        cases ofThisRun
  · intro written file present
    rw [ToolRun.output, written] at present
    exact origin_priorOutput present

theorem allOrNothing_written (zero : run.returncode = 0) {bytes : Bytes}
    (written : run.written = some bytes) :
    AllOrNothing request (finish table reprStr request host run) := by
  have present : run.output host = some { bytes, origin := .thisRun } := by
    rw [ToolRun.output, written]
  by_cases large : request.sizeBudgetBytes < bytes.length
  · rw [finish_oversized zero present large, allOrNothing_error_iff]
    · intro file left
      cases left
    · intro _ bytes' written'
      rw [written] at written'
      cases written'
      exact large
  · have small : (bytes.length : ℤ) ≤ request.sizeBudgetBytes := Int.not_lt.mp large
    rw [finish_accepted zero present small]
    refine { returns := fun built => ⟨?_, ?_⟩, clean := ?_ }
    · intro ok
      cases ok
      exact ⟨run, bytes, rfl, zero, written, small, rfl⟩
    · rintro ⟨run', bytes', invoked, -, written', -, rfl⟩
      cases invoked
      rw [written] at written'
      cases written'
      rfl
    · rintro ⟨exn, error⟩
      cases error

theorem allOrNothing_silent_iff (zero : run.returncode = 0) (silent : run.written = none) :
    AllOrNothing request (finish table reprStr request host run) ↔
      ∀ bytes, host.prior = some bytes → request.sizeBudgetBytes < bytes.length := by
  have output : run.output host = host.priorOutput := by rw [ToolRun.output, silent]
  have unsuccessful : run.returncode = 0 → ∀ bytes, run.written = some bytes →
      request.sizeBudgetBytes < bytes.length := by
    intro _ bytes written
    rw [silent] at written
    cases written
  cases prior : host.prior with
  | none =>
      rw [finish_missing zero (by rw [output, Host.priorOutput, prior]; rfl),
        allOrNothing_error_iff unsuccessful]
      simp
  | some bytes =>
      have present : run.output host = some { bytes, origin := .earlier } := by
        rw [output, Host.priorOutput, prior]
        rfl
      by_cases large : request.sizeBudgetBytes < bytes.length
      · rw [finish_oversized zero present large, allOrNothing_error_iff unsuccessful]
        simpa using large
      · rw [finish_accepted zero present (Int.not_lt.mp large)]
        refine iff_of_false (fun whole => ?_) (fun budget => large (budget bytes rfl))
        rcases (whole.returns _).mp rfl with ⟨run', bytes', invoked, -, written, -⟩
        cases invoked
        rw [silent] at written
        cases written

theorem finish_allOrNothing_iff :
    AllOrNothing request (finish table reprStr request host run) ↔
      Distinguishable request host run := by
  by_cases zero : run.returncode = 0
  · cases written : run.written with
    | none =>
        rw [allOrNothing_silent_iff zero written]
        exact ⟨fun prior => ⟨fun nonzero => absurd zero nonzero, fun _ _ => prior⟩,
          fun distinguishable => distinguishable.silent zero written⟩
    | some bytes =>
        refine iff_of_true (allOrNothing_written zero written) ⟨fun nonzero => absurd zero nonzero,
          ?_⟩
        intro _ silent
        rw [written] at silent
        cases silent
  · rw [allOrNothing_failed_iff zero]
    exact ⟨fun written => ⟨fun _ => written, fun zero' => absurd zero' zero⟩,
      fun distinguishable => distinguishable.failed zero⟩

end Outcomes

/-- For every file that was there, every budget and every behaviour of the tool: the build is all
or nothing exactly when a tool that fails has written nothing and a tool that succeeds without
writing has not been run over an older file within the budget. -/
theorem buildBootstrapImage_allOrNothing_iff (table : CharTable) (reprStr : String → String)
    (request : Request) (host : Host) :
    AllOrNothing request (buildBootstrapImage table reprStr request host) ↔
      ∀ ipxeLkrn staging, host.ipxeLkrn = some ipxeLkrn → host.staging = .ok staging →
        Distinguishable request host (host.runCommand
          [request.grubMkrescuePath, "--output=" ++ pathStr request.outputPath, staging]
          (stageDirectory ipxeLkrn request.scriptText)) := by
  rw [buildBootstrapImage]
  cases invoked : invoke reprStr request host with
  | error exn =>
      refine iff_of_true (allOrNothing_of_not_invoked exn) ?_
      intro ipxeLkrn staging lkrn staged
      rw [invoke_eq lkrn staged] at invoked
      cases invoked
  | ok run =>
      dsimp only
      rw [finish_allOrNothing_iff]
      rcases exists_of_invoke invoked with ⟨ipxeLkrn, staging, lkrn, staged, rfl⟩
      constructor
      · intro distinguishable ipxeLkrn' staging' lkrn' staged'
        rw [lkrn] at lkrn'
        rw [staged] at staged'
        cases lkrn'
        cases staged'
        exact distinguishable
      · intro distinguishable
        exact distinguishable ipxeLkrn staging lkrn staged

/-- A tool that behaves the same on every tree. -/
def exampleHost (prior : Option Bytes) (run : ToolRun) : Host where
  ipxeLkrn := some [0x4D, 0x5A]
  prior
  staging := .ok "/tmp/asmb8-bootstrap-0"
  runCommand _ _ := run

def exampleRequest : Request where
  ipxeLkrnPath := "/srv/ipxe.lkrn"
  scriptText := "#!ipxe\n"
  outputPath := "/srv/bootstrap.iso"
  sizeBudgetBytes := 4
  grubMkrescuePath := "/usr/bin/grub-mkrescue"

/-- A tool that fails in the middle of its output leaves a part of an image, and a tool that
succeeds without output is credited with the image of an earlier run. -/
theorem buildBootstrapImage_leaves_partial_and_accepts_stale :
    ¬ AllOrNothing exampleRequest (buildBootstrapImage asciiTable id exampleRequest
      (exampleHost none { returncode := 1, written := some [0] })) ∧
    ¬ AllOrNothing exampleRequest (buildBootstrapImage asciiTable id exampleRequest
      (exampleHost (some [1, 2]) { returncode := 0 })) := by
  constructor
  · intro whole
    have ofThisRun := whole.clean ⟨_, rfl⟩ rfl { bytes := [0], origin := .thisRun } rfl
    cases ofThisRun
  · intro whole
    rcases (whole.returns { sizeBytes := 2, outputPath := "/srv/bootstrap.iso" }).mp (by decide)
      with ⟨run, bytes, invoked, -, written, -⟩
    cases invoked
    cases written

section Main

structure Params where
  originUrl : String
  ipxeLkrnPath : String
  outputPath : String
  networkMode : String := networkModeStatic
  address : Option String := none
  netmask : Option String := none
  gateway : Option String := none
  dns : Option String := none
  sizeBudgetBytes : ℤ := defaultSizeBudgetBytes
  grubMkrescuePath : Option String := none
  xorrisoPath : Option String := none
deriving DecidableEq, Repr

def buildNetworkConfig (params : Params) : NetworkConfig where
  mode := params.networkMode
  address := params.address
  netmask := params.netmask
  gateway := params.gateway
  dns := params.dns

theorem exists_of_map_ok {β γ : Type} {outcome : Except Exn β} {f : β → γ} {result : γ}
    (ok : outcome.map f = .ok result) : ∃ inner, outcome = .ok inner ∧ f inner = result := by
  cases outcome with
  | error exn => cases ok
  | ok inner => exact ⟨inner, rfl, by cases ok; rfl⟩

/-- What the module exits with; the script is part of every exit. -/
structure Report where
  result : Except Exn (String × Option ℕ)
  script : String

/-- `asmb8_bootstrap_image.main` up to its exit, with what it leaves behind. -/
def main (table : CharTable) (reprStr : String → String) (isExecutable : String → Bool)
    (which : String → Option String) (params : Params) (checkMode : Bool) (host : Host) :
    Report × Option ToolRun × Option OutputFile :=
  let script := renderIpxeScript params.originUrl (buildNetworkConfig params)
  let grubMkrescue := findTool isExecutable which "grub-mkrescue" params.grubMkrescuePath
  let xorriso := findTool isExecutable which "xorriso" params.xorrisoPath
  let missing := (requiredTools.zip [grubMkrescue, xorriso]).filterMap fun tool =>
    if tool.2.isNone then some tool.1 else none
  match grubMkrescue, missing with
  | some grubMkrescuePath, [] =>
      if checkMode = true then
        ({ result := .ok (params.outputPath, none), script }, none, host.priorOutput)
      else
        let ended := buildBootstrapImage table reprStr {
          ipxeLkrnPath := params.ipxeLkrnPath
          scriptText := script
          outputPath := params.outputPath
          sizeBudgetBytes := params.sizeBudgetBytes
          grubMkrescuePath } host
        ({ result := ended.result.map fun built => (built.outputPath, some built.sizeBytes)
           script }, ended.invoked, ended.output)
  | _, _ =>
      ({ result := .error (.ikvm (missingToolError missing)), script }, none, host.priorOutput)

variable {table : CharTable} {reprStr : String → String} {isExecutable : String → Bool}
  {which : String → Option String} {params : Params} {host : Host}

/-- Check mode runs no tool and leaves the output path as it is. -/
theorem main_checkMode :
    (main table reprStr isExecutable which params true host).2 = (none, host.priorOutput) := by
  simp only [main]
  split
  case h_1 => rfl
  case h_2 => rfl

/-- A run that does not come to the tool reports no size and leaves the output path as it is. -/
theorem main_not_invoked {checkMode : Bool}
    (notInvoked : (main table reprStr isExecutable which params checkMode host).2.1 = none) :
    (main table reprStr isExecutable which params checkMode host).2.2 = host.priorOutput ∧
      ∀ path size, (main table reprStr isExecutable which params checkMode host).1.result ≠
        .ok (path, some size) := by
  cases checkMode with
  | true =>
      refine ⟨by rw [main_checkMode], ?_⟩
      intro path size
      simp only [main]
      split
      case h_1 => simp
      case h_2 => simp
  | false =>
      revert notInvoked
      simp only [main]
      split
      case h_2 => simp
      case h_1 grubMkrescuePath _ _ _ =>
        simp only [Bool.false_eq_true, if_false, buildBootstrapImage]
        split
        case h_1 exn _ =>
          intro _
          exact ⟨rfl, fun path size ok => by cases ok⟩
        case h_2 run _ =>
          intro notInvoked
          rw [finish_invoked] at notInvoked
          cases notInvoked

/-- A size that is reported is the size of the file at the output path, and within the budget. -/
theorem main_reported {checkMode : Bool} {path : String} {size : ℕ}
    (ok : (main table reprStr isExecutable which params checkMode host).1.result =
      .ok (path, some size)) :
    path = pathStr params.outputPath ∧ (size : ℤ) ≤ params.sizeBudgetBytes ∧
      ∃ file, (main table reprStr isExecutable which params checkMode host).2.2 = some file ∧
        file.bytes.length = size := by
  revert ok
  simp only [main]
  split
  case h_2 => simp
  case h_1 grubMkrescuePath _ _ _ =>
    cases checkMode with
    | true => simp
    | false =>
        simp only [Bool.false_eq_true, if_false]
        intro ok
        rcases exists_of_map_ok ok with ⟨built, isBuilt, same⟩
        rcases exists_of_built isBuilt with ⟨file, present, small, rfl⟩
        cases same
        exact ⟨rfl, small, file, present, rfl⟩

end Main

end Asmb8Ikvm.BootstrapImage

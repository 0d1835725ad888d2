import Asmb8Ikvm.Iso.Clearance

/-!
# The runs that make an image

The results about whole runs of the role: what precedes the call that writes the
output, and what a run that ends well has done. A run that fails leaves its working
directory behind, and the answer file with the password in it.
-/

namespace Asmb8Ikvm.Iso

open Interaction Toml

universe w

section Runs

variable {σ : Type w} {perform : (request : Call) → σ → request.Answer × σ}
  {others : σ → σ → Prop} {world final : σ} {trace : List (Moment Call σ)} {vars : Vars}
  {work content : Text} {outcome : Except Failure Unit}

/-- The call that writes the output comes behind a task that spares it. -/
theorem behind_spare {α β : Type} {first : Script α} {rest : α → Script β}
    {ended : Except Failure β} {front after : List (Moment Call σ)} {moment : Moment Call σ}
    (run : Runs perform others (first >>= rest) world trace ended final)
    (preliminary : first.Only Preliminary) (split : trace = front ++ moment :: after)
    (writes : Writes vars moment.request) :
    ∃ result reached quiet later middle,
      Runs perform others first world quiet (.ok result) reached ∧
      Runs perform others (rest result) reached later ended final ∧
      front = quiet ++ middle ∧ later = middle ++ moment :: after := by
  rcases run.of_bind with ⟨failure, -, failed⟩ | ⟨result, reached, quiet, later, rfl, started, ran⟩
  · refine absurd writes (failed.only preliminary moment ?_).spares
    rw [split]
    simp
  · have quietly := started.only preliminary
    rcases List.append_eq_append_iff.mp split with
      ⟨middle, isFront, isLater⟩ | ⟨middle, isQuiet, rest⟩
    · exact ⟨result, reached, quiet, later, middle, started, ran, isFront, isLater⟩
    · rcases middle with _ | ⟨other, middle⟩
      · refine ⟨result, reached, quiet, later, [], started, ran, ?_, rest.symm⟩
        rw [isQuiet, List.append_nil, List.append_nil]
      · have same : moment = other := (List.cons.inj rest).1
        refine absurd writes (quietly moment ?_).spares
        rw [isQuiet, same]
        simp

theorem prepareIsoArgv_inj {other : Text}
    (same : prepareIsoArgv vars work = prepareIsoArgv vars other) : work = other := by
  simpa [prepareIsoArgv, answerFile] using same

/-- The call hands the vendor's tool no answer file but the one of the run. -/
def Hands (vars : Vars) (work : Text) (request : Call) : Prop :=
  ∀ other, request = .command (prepareIsoArgv vars other) → other = work

/-- The call belongs to the preparation in the working directory of the run. -/
def Prepares (vars : Vars) (work : Text) (request : Call) : Prop :=
  Hands vars work request ∧ ∀ path, request ≠ .change (.absent path)

theorem hands_change (vars : Vars) (work : Text) (request : Change) :
    Hands vars work (.change request) := by
  rintro other ⟨⟩

theorem prepares_copy (vars : Vars) (work src dest : Text) :
    Prepares vars work (.change (.copy src dest)) :=
  ⟨hands_change _ _ _, fun _ => by simp⟩

theorem prepares_template (vars : Vars) (work : Text) (src : String) (dest : Text) :
    Prepares vars work (.change (.template src dest)) :=
  ⟨hands_change _ _ _, fun _ => by simp⟩

theorem prepares_prepare (tooling : Tooling) :
    (prepare vars work tooling).Only (Prepares vars work) := by
  cases tooling with
  | none => trivial
  | vendor =>
      refine only_command ⟨fun other same => ?_, fun _ => by simp⟩
      exact (prepareIsoArgv_inj (Call.command.inj same)).symm
  | container =>
      have grub : (copyGrubCfg vars work).Only (Prepares vars work) := by
        unfold copyGrubCfg
        split_ifs
        · exact only_change (prepares_copy _ _ _ _)
        · trivial
      have rebuild : Prepares vars work (.command (containerArgv vars work)) := by
        refine ⟨fun other same => ?_, fun _ => by simp⟩
        have lengths := congrArg List.length (Call.command.inj same)
        simp [containerArgv, prepareIsoArgv] at lengths
      exact (only_change (prepares_template _ _ _ _)).bind fun _ =>
        (only_change (prepares_copy _ _ _ _)).bind fun _ => grub.bind fun _ =>
          (only_change (prepares_template _ _ _ _)).bind fun _ =>
            (only_command rebuild).bind fun _ => only_change (prepares_copy _ _ _ _)

theorem hands_confirm : (confirm vars work).Only (Hands vars work) := by
  refine (only_stat fun other same => by cases same).bind fun _ =>
    (only_require _ _ _).bind fun _ => ?_
  split_ifs
  · trivial
  · exact only_change (hands_change _ _ _)

/-- What was made sure of before the output is written. -/
theorem cleared_of_writes {moment : Moment Call σ} {front after : List (Moment Call σ)}
    (run : Runs perform others (main vars) world trace outcome final)
    (split : trace = front ++ moment :: after) (writes : Writes vars moment.request) :
    ∃ work content, Cleared perform vars work content front ∧ Hands vars work moment.request := by
  rcases behind_spare run (preliminary_validate vars) split writes with
    ⟨_, _, validated, _, afterValidation, validation, working, rfl, splitWorkdir⟩
  rcases behind_spare working (preliminary_prepareWorkdir vars) splitWorkdir writes with
    ⟨work, _, prepared, _, afterWorkdir, -, rendering, rfl, splitAnswer⟩
  rcases behind_spare rendering (preliminary_renderAnswer vars work) splitAnswer writes with
    ⟨version, _, rendered, _, afterAnswer, rendition, discovering, rfl, splitTooling⟩
  rcases behind_spare discovering (preliminary_discoverTooling vars version) splitTooling
      writes with
    ⟨tooling, _, discovered, later, middle, -, preparing, rfl, isLater⟩
  rcases validate_ok validation with ⟨opening, answer, source, output⟩
  rcases renderAnswer_ok rendition with ⟨content, isContent, written, returned, valid⟩
  have hands := preparing.only
    (((prepares_prepare tooling).mono fun _ prepares => prepares.1).bind fun _ => hands_confirm)
  refine ⟨work, content, ?_, hands moment (by rw [isLater]; simp)⟩
  rcases source with ⟨sourceWorld, sourceStat, sourceMem, sourceSeen⟩
  rcases output with ⟨outputWorld, outputStat, outputMem, outputFree⟩
  rcases written with ⟨writeWorld, writeMem, writeDone⟩
  have inValidated : ∀ {m : Moment Call σ}, m ∈ validated →
      m ∈ validated ++ (prepared ++ (rendered ++ (discovered ++ middle))) :=
    fun mem => List.mem_append_left _ mem
  have inRendered : ∀ {m : Moment Call σ}, m ∈ rendered →
      m ∈ validated ++ (prepared ++ (rendered ++ (discovered ++ middle))) :=
    fun mem => List.mem_append_right _ (List.mem_append_right _ (List.mem_append_left _ mem))
  have lasting : ∀ {argv rc}, Returned perform argv rc rendered → Returned perform argv rc
      (validated ++ (prepared ++ (rendered ++ (discovered ++ middle)))) :=
    fun ⟨world, mem, same⟩ => ⟨world, inRendered mem, same⟩
  exact ⟨opening, answer, ⟨sourceWorld, sourceStat, inValidated sourceMem, sourceSeen⟩,
    ⟨outputWorld, outputStat, inValidated outputMem, outputFree⟩, isContent,
    ⟨writeWorld, inRendered writeMem, writeDone⟩, version, lasting returned,
    fun zero => lasting (valid zero)⟩

theorem document_of_read {doc : List Table} (bare : BareKeys vars.answer)
    (rendered : answerToml vars.answer = some content) (isDoc : Toml.read content = some doc) :
    doc = document vars.answer := by
  have settled := answer_settled bare
  rw [rendered, Option.bind_some, isDoc] at settled
  by_cases readable : Readable vars.answer
  · exact Option.some.inj (settled.1 readable)
  · cases settled.2 readable

/-- Whatever others do between the tasks, an image is only made with everything made sure of, and
what can be read in its answer file names the disks in one way, all of them concretely. -/
theorem image_authorised {moment : Moment Call σ} {front after : List (Moment Call σ)}
    (run : Runs perform others (main vars) world trace outcome final)
    (split : trace = front ++ moment :: after) (writes : Writes vars moment.request) :
    ∃ work content, Cleared perform vars work content front ∧ Hands vars work moment.request ∧
      (BareKeys vars.answer → ∀ doc, Toml.read content = some doc →
        NamesDisks (entriesOf "disk-setup" doc) ∧ OnePassword (entriesOf "global" doc)) := by
  rcases cleared_of_writes run split writes with ⟨work, content, cleared, hands⟩
  refine ⟨work, content, cleared, hands, ?_⟩
  intro bare doc isDoc
  rw [document_of_read bare cleared.rendered isDoc]
  have disks : entriesOf "disk-setup" (document vars.answer) = diskEntries vars.answer := by
    simp [entriesOf, document, List.lookup]
  have globals : entriesOf "global" (document vars.answer) = globalEntries vars.answer := by
    simp [entriesOf, document]
  rw [disks, globals]
  exact ⟨namesDisks cleared.answer, onePassword cleared.answer⟩

end Runs

section Endings

variable {σ : Type w} (perform : (request : Call) → σ → request.Answer × σ)

/-- A task that changes files has succeeded. -/
def Changed (request : Change) (trace : List (Moment Call σ)) : Prop :=
  ∃ world, ⟨.change request, world⟩ ∈ trace ∧ (perform (.change request) world).1 = true

/-- The vendor's tool was there, preferred or without alternative, and has made the image. -/
def MadeByVendor (vars : Vars) (work : Text) (trace : List (Moment Call σ)) : Prop :=
  Returned perform (versionArgv vars.vendorToolPath) 0 trace ∧
    (vars.preferVendorTool = true ∨
      ∃ rc ≠ 0, Returned perform (versionArgv vars.containerRuntime) rc trace) ∧
    Returned perform (prepareIsoArgv vars work) 0 trace

/-- The container runtime was there, the vendor's tool was not or is not preferred, and the image
was rebuilt and copied to its place. -/
def MadeInContainer (vars : Vars) (work : Text) (trace : List (Moment Call σ)) : Prop :=
  Returned perform (versionArgv vars.containerRuntime) 0 trace ∧
    (vars.preferVendorTool = false ∨
      ∃ rc ≠ 0, Returned perform (versionArgv vars.vendorToolPath) rc trace) ∧
    Returned perform (containerArgv vars work) 0 trace ∧
    Changed perform (.copy (work ++ "/out.iso".toList) vars.output) trace

/-- The end of a run that went well: the image was made, then seen, and then the working directory
was removed unless it is to be kept. -/
def Concluded (vars : Vars) (trace : List (Moment Call σ)) : Prop :=
  ∃ work front seen output cleanup, trace = front ++ ⟨.stat vars.output, seen⟩ :: cleanup ∧
    (MadeByVendor perform vars work front ∨ MadeInContainer perform vars work front) ∧
    (perform (.stat vars.output) seen).1 = some output ∧ output.exists = true ∧ 0 < output.size ∧
    if vars.keepWorkDir then cleanup = []
    else ∃ removal, cleanup = [⟨.change (.absent work), removal⟩] ∧
      (perform (.change (.absent work)) removal).1 = true

/-- No directory was removed. -/
def NothingRemoved (trace : List (Moment Call σ)) : Prop :=
  ∀ path removal, ⟨.change (.absent path), removal⟩ ∈ trace →
    (perform (.change (.absent path)) removal).1 = false

variable {perform} {others : σ → σ → Prop} {world final : σ} {trace : List (Moment Call σ)}
  {vars : Vars} {work : Text} {outcome : Except Failure Unit}

theorem discoverTooling_ok {version : ℤ} {tooling : Tooling}
    (run : Runs perform others (discoverTooling vars version) world trace (.ok tooling) final) :
    ∃ rc, Returned perform (versionArgv vars.containerRuntime) rc trace ∧
      (tooling = .vendor → version = 0 ∧ (vars.preferVendorTool = true ∨ rc ≠ 0)) ∧
      (tooling = .container → rc = 0 ∧ (vars.preferVendorTool = false ∨ version ≠ 0)) := by
  rcases run.of_bind_ok with ⟨rc, _, _, _, rfl, probing, decided⟩
  rcases call_ok probing with ⟨moved, rfl, rfl, rfl⟩
  refine ⟨_, ⟨moved, by simp, rfl⟩, ?_⟩
  generalize (perform (.command (versionArgv vars.containerRuntime)) moved).1 = rc at decided
  dsimp only at decided
  by_cases vendor : version = 0 ∧ (vars.preferVendorTool = true ∨ rc ≠ 0)
  · rw [if_pos vendor] at decided
    cases decided
    exact ⟨fun _ => vendor, nofun⟩
  · rw [if_neg vendor] at decided
    split_ifs at decided with container
    · cases decided
      refine ⟨nofun, fun _ => ⟨container, ?_⟩⟩
      by_contra neither
      rw [not_or, Bool.not_eq_false, not_not] at neither
      exact vendor ⟨neither.2, .inl neither.1⟩
    · cases decided
      exact ⟨nofun, nofun⟩

theorem prepareWithContainer_ok
    (run : Runs perform others (prepareWithContainer vars work) world trace (.ok ()) final) :
    Returned perform (containerArgv vars work) 0 trace ∧
      Changed perform (.copy (work ++ "/out.iso".toList) vars.output) trace := by
  rcases run.of_bind_ok with ⟨_, _, _, _, rfl, -, copying⟩
  rcases copying.of_bind_ok with ⟨_, _, _, _, rfl, -, patching⟩
  rcases patching.of_bind_ok with ⟨_, _, _, _, rfl, -, scripting⟩
  rcases scripting.of_bind_ok with ⟨_, _, _, _, rfl, -, rebuilding⟩
  rcases rebuilding.of_bind_ok with ⟨_, _, _, _, rfl, rebuild, placing⟩
  rcases command_ok rebuild with ⟨rebuildWorld, rfl, rebuilt⟩
  rcases change_ok placing with ⟨placeWorld, rfl, placed⟩
  exact ⟨⟨rebuildWorld, by simp, rebuilt⟩, ⟨placeWorld, by simp, placed⟩⟩

/-- What is left of a run that ends well when its image is looked for. -/
theorem confirm_ok (run : Runs perform others (confirm vars work) world trace (.ok ()) final) :
    ∃ seen output cleanup, trace = ⟨.stat vars.output, seen⟩ :: cleanup ∧
      (perform (.stat vars.output) seen).1 = some output ∧ output.exists = true ∧
      0 < output.size ∧
      if vars.keepWorkDir then cleanup = []
      else ∃ removal, cleanup = [⟨.change (.absent work), removal⟩] ∧
        (perform (.change (.absent work)) removal).1 = true := by
  rcases run.of_bind_ok with ⟨output, _, _, _, rfl, looking, judging⟩
  rcases stat_ok looking with ⟨seen, rfl, isOutput⟩
  rcases judging.of_bind_ok with ⟨_, _, _, _, rfl, there, tidying⟩
  rcases require_ok there with ⟨isThere, rfl, rfl⟩
  rw [Bool.and_eq_true, decide_eq_true_eq] at isThere
  refine ⟨seen, output, _, rfl, isOutput, isThere.1, isThere.2, ?_⟩
  split_ifs at tidying ⊢ with keep
  · cases tidying
    rfl
  · exact change_ok tidying

theorem failed_removal {path : Text}
    (run : Runs perform others (change (.absent path)) world trace outcome final)
    (failed : outcome ≠ .ok ()) : NothingRemoved perform trace := by
  have removing : Runs perform others (.call (.change (.absent path)) fun done =>
      if done then pure () else .fail (.failed (.change (.absent path))))
      world trace outcome final :=
    run
  rcases removing.of_call with ⟨removal, rest, -, rfl, ended⟩
  cases removed : (perform (.change (.absent path)) removal).1 with
  | true =>
      rw [removed] at ended
      cases ended
      exact absurd rfl failed
  | false =>
      rw [removed] at ended
      cases ended
      intro other moved mem
      cases List.mem_singleton.mp mem
      exact removed

theorem nothingRemoved_append {before after : List (Moment Call σ)}
    (first : NothingRemoved perform before) (second : NothingRemoved perform after) :
    NothingRemoved perform (before ++ after) := by
  intro path removal mem
  exact (List.mem_append.mp mem).elim (first path removal) (second path removal)

theorem nothingRemoved_of_only {α : Type} {program : Script α} {ended : Except Failure α}
    {P : Call → Prop} (only : program.Only P)
    (keeps : ∀ path, ¬P (.change (.absent path)))
    (run : Runs perform others program world trace ended final) : NothingRemoved perform trace :=
  fun path _ mem => absurd (run.only only _ mem) (keeps path)

/-- A stage that removes nothing, and what comes behind it when a run does not end well. -/
theorem nothingRemoved_bind {α β : Type} {first : Script α} {rest : α → Script β}
    {ended : Except Failure β} {P : Call → Prop} (only : first.Only P)
    (keeps : ∀ path, ¬P (.change (.absent path)))
    (later : ∀ result reached after, Runs perform others (rest result) reached after ended final →
      NothingRemoved perform after)
    (run : Runs perform others (first >>= rest) world trace ended final) :
    NothingRemoved perform trace := by
  rcases run.of_bind with
    ⟨failure, -, failed⟩ | ⟨result, reached, before, after, rfl, ran, resting⟩
  · exact nothingRemoved_of_only only keeps failed
  · exact nothingRemoved_append (nothingRemoved_of_only only keeps ran) (later _ _ _ resting)

theorem confirm_removes_nothing
    (run : Runs perform others (confirm vars work) world trace outcome final)
    (failed : outcome ≠ .ok ()) : NothingRemoved perform trace := by
  have preliminary : ∀ path, ¬Preliminary (.change (.absent path)) := fun _ => id
  refine nothingRemoved_bind (only_stat trivial) preliminary ?_ run
  intro output _ _ judging
  refine nothingRemoved_bind (only_require _ _ _) preliminary ?_ judging
  intro _ _ _ tidying
  split_ifs at tidying
  · cases tidying
    exact absurd rfl failed
  · exact failed_removal tidying failed

theorem failed_removes_nothing
    (run : Runs perform others (main vars) world trace outcome final)
    (failed : outcome ≠ .ok ()) : NothingRemoved perform trace := by
  have preliminary : ∀ path, ¬Preliminary (.change (.absent path)) := fun _ => id
  refine nothingRemoved_bind (preliminary_validate vars) preliminary ?_ run
  intro _ _ _ working
  refine nothingRemoved_bind (preliminary_prepareWorkdir vars) preliminary ?_ working
  intro work _ _ rendering
  refine nothingRemoved_bind (preliminary_renderAnswer vars work) preliminary ?_ rendering
  intro version _ _ discovering
  refine nothingRemoved_bind (preliminary_discoverTooling vars version) preliminary ?_ discovering
  intro tooling _ _ preparing
  refine nothingRemoved_bind (prepares_prepare tooling)
    (fun path prepares => prepares.2 path rfl) ?_ preparing
  intro _ _ _ confirming
  exact confirm_removes_nothing confirming failed

theorem made_of_prepare {version rc : ℤ} {tooling : Tooling}
    {rendered discovered : List (Moment Call σ)}
    (isVersion : Returned perform (versionArgv vars.vendorToolPath) version rendered)
    (isRuntime : Returned perform (versionArgv vars.containerRuntime) rc discovered)
    (vendor : tooling = .vendor → version = 0 ∧ (vars.preferVendorTool = true ∨ rc ≠ 0))
    (container : tooling = .container → rc = 0 ∧ (vars.preferVendorTool = false ∨ version ≠ 0))
    (run : Runs perform others (prepare vars work tooling) world trace (.ok ()) final)
    {front : List (Moment Call σ)}
    (inFront : rendered ⊆ front ∧ discovered ⊆ front ∧ trace ⊆ front) :
    MadeByVendor perform vars work front ∨ MadeInContainer perform vars work front := by
  have lasting : ∀ {some : List (Moment Call σ)} {argv rc}, some ⊆ front →
      Returned perform argv rc some → Returned perform argv rc front :=
    fun subset ⟨world, mem, same⟩ => ⟨world, subset mem, same⟩
  rcases inFront with ⟨inRendered, inDiscovered, inTrace⟩
  cases tooling with
  | none => cases run
  | vendor =>
      rcases vendor rfl with ⟨rfl, choice⟩
      rcases command_ok run with ⟨moved, rfl, done⟩
      refine .inl ⟨lasting inRendered isVersion, ?_, lasting inTrace ⟨moved, by simp, done⟩⟩
      exact choice.imp_right fun absent => ⟨rc, absent, lasting inDiscovered isRuntime⟩
  | container =>
      rcases container rfl with ⟨rfl, choice⟩
      rcases prepareWithContainer_ok run with ⟨rebuilt, placeWorld, placed, done⟩
      refine .inr ⟨lasting inDiscovered isRuntime, ?_, lasting inTrace rebuilt,
        placeWorld, inTrace placed, done⟩
      exact choice.imp_right fun absent => ⟨version, absent, lasting inRendered isVersion⟩

theorem ok_concludes (run : Runs perform others (main vars) world trace (.ok ()) final) :
    Concluded perform vars trace := by
  rcases run.of_bind_ok with ⟨_, _, validated, _, rfl, -, working⟩
  rcases working.of_bind_ok with ⟨work, _, staged, _, rfl, -, rendering⟩
  rcases rendering.of_bind_ok with ⟨version, _, rendered, _, rfl, rendition, discovering⟩
  rcases discovering.of_bind_ok with ⟨tooling, _, discovered, _, rfl, discovery, preparing⟩
  rcases preparing.of_bind_ok with ⟨_, _, prepared, _, rfl, preparation, confirming⟩
  rcases renderAnswer_ok rendition with ⟨content, -, -, isVersion, -⟩
  rcases discoverTooling_ok discovery with ⟨rc, isRuntime, vendor, container⟩
  rcases confirm_ok confirming
    with ⟨seen, output, cleanup, rfl, isOutput, isThere, notEmpty, tidied⟩
  refine ⟨work, validated ++ (staged ++ (rendered ++ (discovered ++ prepared))), seen, output,
    cleanup, by simp, ?_, isOutput, isThere, notEmpty, tidied⟩
  refine made_of_prepare isVersion isRuntime vendor container preparation ⟨?_, ?_, ?_⟩
  · exact fun _ mem => by simp [mem]
  · exact fun _ mem => by simp [mem]
  · exact fun _ mem => by simp [mem]

/-- A run that ends well has made the image with the tool the precedence names, has seen it, and
has tidied up as it was told; a run that fails removes nothing, and leaves the working directory
with its answer file. -/
theorem run_accounts (run : Runs perform others (main vars) world trace outcome final) :
    (outcome = .ok () → Concluded perform vars trace) ∧
      (outcome ≠ .ok () → NothingRemoved perform trace) := by
  refine ⟨?_, failed_removes_nothing run⟩
  rintro rfl
  exact ok_concludes run

end Endings

section Sample

/-- The variables of a run that makes an image for the sample answer. -/
def sampleVars : Vars where
  source := "/iso/stock".toList
  output := "/iso/ready".toList
  force := false
  confirmDestructive := .bool true
  preferVendorTool := true
  vendorToolPath := "assistant".toList
  containerRuntime := "docker".toList
  containerImage := "debian".toList
  containerMountOptions := []
  workDir := "/iso".toList
  keepWorkDir := false
  grubCfgOverride := []
  answer := sampleAnswer

/-- A controller with the vendor's tool on it; its state is whether the output is there. -/
def sampleController : (request : Call) → Bool → request.Answer × Bool
  | .stat path, isMade =>
      (some ⟨path == sampleVars.source || isMade, true, true, if isMade then 7 else 0⟩, isMade)
  | .tempfile _, isMade => (some "/iso/w".toList, isMade)
  | .command argv, isMade => (0, isMade || argv.length == 9)
  | .change _, isMade => (true, isMade)

/-- The trace of the sample run. -/
def sampleTrace : List (Moment Call Bool) :=
  (exec sampleController (main sampleVars) false).1

theorem sample_runs :
    Runs sampleController (fun _ _ => True) (main sampleVars) false sampleTrace
      (exec sampleController (main sampleVars) false).2.1
      (exec sampleController (main sampleVars) false).2.2 :=
  exec_runs fun _ => trivial

theorem sample_split : sampleTrace = sampleTrace.take 8 ++
    ⟨.command (prepareIsoArgv sampleVars "/iso/w".toList), false⟩ :: sampleTrace.drop 9 := by
  rfl

theorem image_authorised_vendor :
    ∃ work content, Cleared sampleController sampleVars work content (sampleTrace.take 8) ∧
      Hands sampleVars work (.command (prepareIsoArgv sampleVars "/iso/w".toList)) ∧
        ∀ doc, Toml.read content = some doc →
          NamesDisks (entriesOf "disk-setup" doc) ∧ OnePassword (entriesOf "global" doc) := by
  rcases image_authorised sample_runs sample_split ⟨_, rfl⟩ with
    ⟨work, content, cleared, hands, names⟩
  exact ⟨work, content, cleared, hands, names sample_bareKeys⟩

theorem sample_ends : (exec sampleController (main sampleVars) false).2.1 = .ok () := by
  rfl

theorem run_accounts_vendor : Concluded sampleController sampleVars sampleTrace :=
  (run_accounts sample_runs).1 sample_ends

end Sample

end Asmb8Ikvm.Iso

import Asmb8Ikvm.Iso.Image

/-!
# Why a run fails

A run of the role that fails says which assertion refused it or which task failed, and
it says the truth: the assertion is the first one that does not hold, or the answer to
the call made last is what it complains about. While the variables are still being
checked nothing but `stat` has been called. Behind the checks the template fails exactly
where a network filter, or the options of the chosen file system, are no mapping.
-/

namespace Asmb8Ikvm.Iso

open Interaction

universe w

section Statements

variable {σ : Type w} (perform : (request : Call) → σ → request.Answer × σ)

/-- What the assertions do not ask: that these variables are mappings. -/
inductive Misshapen (a : Answer) : Prop where
  | networkFilter (isSet : a.networkFilter.truthy = true)
      (shape : a.networkFilter.isMapping = false)
  | zfs (chosen : a.diskFilesystem = .text "zfs".toList) (shape : a.diskZfs.isMapping = false)
  | lvm (chosen : a.diskFilesystem = .text "ext4".toList ∨ a.diskFilesystem = .text "xfs".toList)
      (shape : a.diskLvm.isMapping = false)
  | btrfs (chosen : a.diskFilesystem = .text "btrfs".toList)
      (shape : a.diskBtrfs.isMapping = false)

/-- The answer to the call made last is what the failure complains about, or the shape of a
variable is. -/
inductive Told (vars : Vars) : List (Moment Call σ) → Failure → Prop where
  | stat (front : List (Moment Call σ)) {world : σ} {path : Text}
      (failed : (perform (.stat path) world).1 = (none : Option Stat)) :
      Told vars (front ++ [⟨.stat path, world⟩]) (.failed (.stat path))
  | source (front : List (Moment Call σ)) {world : σ} {source : Stat}
      (found : (perform (.stat vars.source) world).1 = some source)
      (unreadable : (source.exists && source.isreg && source.readable) = false) :
      Told vars (front ++ [⟨.stat vars.source, world⟩]) (.refused .sourceReadable)
  | output (front : List (Moment Call σ)) {world : σ} {output : Stat}
      (found : (perform (.stat vars.output) world).1 = some output)
      (taken : output.exists = true) (unforced : vars.force = false) :
      Told vars (front ++ [⟨.stat vars.output, world⟩]) (.refused .outputFree)
  | invalid (front : List (Moment Call σ)) {world : σ} {work : Text}
      (rejected : (perform (.command (validateAnswerArgv vars work)) world).1 ≠ 0) :
      Told vars (front ++ [⟨.command (validateAnswerArgv vars work), world⟩])
        (.refused .answerValid)
  | unwritten (front : List (Moment Call σ)) {world : σ} {output : Stat}
      (found : (perform (.stat vars.output) world).1 = some output)
      (missing : output.exists = false ∨ output.size = 0) :
      Told vars (front ++ [⟨.stat vars.output, world⟩]) (.refused .outputWritten)
  | tempfile (front : List (Moment Call σ)) {world : σ}
      (failed : (perform (.tempfile vars.workDir) world).1 = (none : Option Text)) :
      Told vars (front ++ [⟨.tempfile vars.workDir, world⟩]) (.failed (.tempfile vars.workDir))
  | change (front : List (Moment Call σ)) {world : σ} {request : Change}
      (failed : (perform (.change request) world).1 = false) :
      Told vars (front ++ [⟨.change request, world⟩]) (.failed (.change request))
  | command (front : List (Moment Call σ)) {world : σ} {argv : List Text}
      (failed : (perform (.command argv) world).1 ≠ 0) :
      Told vars (front ++ [⟨.command argv, world⟩]) (.failed (.command argv))
  | template {trace : List (Moment Call σ)} (misshapen : Misshapen vars.answer) :
      Told vars trace .template
  | noTooling {trace : List (Moment Call σ)} {version runtime : ℤ}
      (noVendor : version ≠ 0) (noRuntime : runtime ≠ 0)
      (isVersion : Returned perform (versionArgv vars.vendorToolPath) version trace)
      (isRuntime : Returned perform (versionArgv vars.containerRuntime) runtime trace) :
      Told vars trace .noTooling

/-- The assertion is the first of its kind that does not hold, and so far nothing has been done
but to look. -/
def Unmet (vars : Vars) (trace : List (Moment Call σ)) (failure : Failure) : Prop :=
  ∃ before guard after, openingGuards ++ answerGuards = before ++ guard :: after ∧
    failure = .refused guard ∧ guard.holds vars = false ∧
    (∀ earlier ∈ before, earlier.holds vars = true) ∧
    ∀ moment ∈ trace, moment.request = .stat vars.source ∨ moment.request = .stat vars.output

end Statements

section Stages

variable {σ : Type w} {perform : (request : Call) → σ → request.Answer × σ}
  {others : σ → σ → Prop} {world final : σ} {trace : List (Moment Call σ)} {vars : Vars}
  {work : Text} {failure : Failure}

theorem Told.behind (front : List (Moment Call σ)) (told : Told perform vars trace failure) :
    Told perform vars (front ++ trace) failure := by
  have lasting : ∀ {some : List (Moment Call σ)} {argv rc}, Returned perform argv rc some →
      Returned perform argv rc (front ++ some) :=
    fun ⟨world, mem, same⟩ => ⟨world, List.mem_append_right _ mem, same⟩
  cases told with
  | stat before failed =>
      rw [← List.append_assoc]
      exact .stat _ failed
  | source before found unreadable =>
      rw [← List.append_assoc]
      exact .source _ found unreadable
  | output before found taken unforced =>
      rw [← List.append_assoc]
      exact .output _ found taken unforced
  | invalid before rejected =>
      rw [← List.append_assoc]
      exact .invalid _ rejected
  | unwritten before found missing =>
      rw [← List.append_assoc]
      exact .unwritten _ found missing
  | tempfile before failed =>
      rw [← List.append_assoc]
      exact .tempfile _ failed
  | change before failed =>
      rw [← List.append_assoc]
      exact .change _ failed
  | command before failed =>
      rw [← List.append_assoc]
      exact .command _ failed
  | template misshapen => exact .template misshapen
  | noTooling noVendor noRuntime isVersion isRuntime =>
      exact .noTooling noVendor noRuntime (lasting isVersion) (lasting isRuntime)

/-- A stage that fails told why, or what comes behind it does. -/
theorem told_bind {α β : Type} {first : Script α} {rest : α → Script β}
    (fails : ∀ before reached, Runs perform others first world before (.error failure) reached →
      Told perform vars before failure)
    (later : ∀ result reached before after,
      Runs perform others first world before (.ok result) reached →
      Runs perform others (rest result) reached after (.error failure) final →
      Told perform vars after failure)
    (run : Runs perform others (first >>= rest) world trace (.error failure) final) :
    Told perform vars trace failure := by
  rcases run.of_bind with ⟨_, same, failed⟩ | ⟨result, reached, before, after, rfl, ran, resting⟩
  · cases same
    exact fails _ _ failed
  · exact (later _ _ _ _ ran resting).behind before

theorem require_error {guard : Guard} {holds : Bool}
    (run : Runs perform others (require guard holds) world trace (.error failure) final) :
    failure = .refused guard ∧ holds = false ∧ trace = [] := by
  cases holds with
  | true => cases run
  | false =>
      cases run
      exact ⟨rfl, rfl, rfl⟩

theorem requireAll_error {guards : List Guard}
    (run : Runs perform others (requireAll vars guards) world trace (.error failure) final) :
    ∃ before guard after, guards = before ++ guard :: after ∧ failure = .refused guard ∧
      guard.holds vars = false ∧ (∀ earlier ∈ before, earlier.holds vars = true) ∧ trace = [] := by
  induction guards generalizing trace world with
  | nil => cases run
  | cons guard guards ih =>
      rcases run.of_bind with ⟨_, same, failed⟩ | ⟨_, reached, before, after, rfl, ran, resting⟩
      · cases same
        rcases require_error failed with ⟨rfl, unmet, rfl⟩
        exact ⟨[], guard, guards, rfl, rfl, unmet, fun _ mem => absurd mem List.not_mem_nil, rfl⟩
      · rcases require_ok ran with ⟨holds, rfl, rfl⟩
        rcases ih resting with ⟨earlier, other, later, rfl, rfl, unmet, met, rfl⟩
        exact ⟨guard :: earlier, other, later, rfl, rfl, unmet,
          List.forall_mem_cons.mpr ⟨holds, met⟩, rfl⟩

theorem not_call_error {request : Call} :
    ¬Runs perform others (call request) world trace (.error failure) final := by
  intro run
  rcases run.of_call with ⟨_, _, -, -, ended⟩
  cases ended

theorem stat_error {path : Text}
    (run : Runs perform others (stat path) world trace (.error failure) final) :
    Told perform vars trace failure := by
  rcases run.of_bind with ⟨_, -, failed⟩ | ⟨answer, _, _, _, rfl, asked, settled⟩
  · exact absurd failed not_call_error
  · rcases call_ok asked with ⟨moved, rfl, isAnswer, rfl⟩
    cases answer with
    | none =>
        cases settled
        exact .stat [] isAnswer.symm
    | some found => cases settled

theorem change_error {request : Change}
    (run : Runs perform others (change request) world trace (.error failure) final) :
    Told perform vars trace failure := by
  rcases run.of_bind with ⟨_, -, failed⟩ | ⟨done, _, _, _, rfl, asked, settled⟩
  · exact absurd failed not_call_error
  · rcases call_ok asked with ⟨moved, rfl, rfl, rfl⟩
    split_ifs at settled with isDone
    · cases settled
    · cases settled
      exact .change [] (Bool.eq_false_iff.mpr isDone)

theorem command_error {argv : List Text}
    (run : Runs perform others (command argv) world trace (.error failure) final) :
    Told perform vars trace failure := by
  rcases run.of_bind with ⟨_, -, failed⟩ | ⟨rc, _, _, _, rfl, asked, settled⟩
  · exact absurd failed not_call_error
  · rcases call_ok asked with ⟨moved, rfl, rfl, rfl⟩
    split_ifs at settled with isDone
    · cases settled
    · cases settled
      exact .command [] isDone

theorem validate_error
    (run : Runs perform others (validate vars) world trace (.error failure) final) :
    Unmet vars trace failure ∨ Told perform vars trace failure := by
  rcases run.of_bind with ⟨_, same, failed⟩ | ⟨_, _, _, _, rfl, opening, looking⟩
  · cases same
    rcases requireAll_error failed with ⟨before, guard, after, split, rfl, unmet, met, rfl⟩
    refine .inl ⟨before, guard, after ++ answerGuards, ?_, rfl, unmet, met, by simp⟩
    rw [split, List.append_assoc, List.cons_append]
  rcases requireAll_ok opening with ⟨openingHolds, rfl, rfl⟩
  rcases looking.of_bind with ⟨_, same, failed⟩ | ⟨source, _, _, _, rfl, sourceRun, judging⟩
  · cases same
    exact .inr (stat_error failed)
  rcases stat_ok sourceRun with ⟨sourceWorld, rfl, isSource⟩
  rcases judging.of_bind with ⟨_, same, failed⟩ | ⟨_, _, _, _, rfl, readable, searching⟩
  · cases same
    rcases require_error failed with ⟨rfl, unreadable, rfl⟩
    exact .inr (.source [] isSource unreadable)
  rcases require_ok readable with ⟨-, rfl, rfl⟩
  rcases searching.of_bind with ⟨_, same, failed⟩ | ⟨output, _, _, _, rfl, outputRun, freeing⟩
  · cases same
    exact .inr ((stat_error failed).behind [⟨.stat vars.source, sourceWorld⟩])
  rcases stat_ok outputRun with ⟨outputWorld, rfl, isOutput⟩
  rcases freeing.of_bind with ⟨_, same, failed⟩ | ⟨_, _, _, _, rfl, free, answering⟩
  · cases same
    rcases require_error failed with ⟨rfl, taken, rfl⟩
    rw [Bool.or_eq_false_iff, Bool.not_eq_false'] at taken
    exact .inr (.output [⟨.stat vars.source, sourceWorld⟩] isOutput taken.1 taken.2)
  rcases require_ok free with ⟨-, rfl, rfl⟩
  rcases requireAll_error answering with ⟨before, guard, after, split, rfl, unmet, met, rfl⟩
  refine .inl ⟨openingGuards ++ before, guard, after, by rw [split, List.append_assoc], rfl, unmet,
    ?_, by simp⟩
  intro earlier mem
  exact (List.mem_append.mp mem).elim (openingHolds earlier) (met earlier)

theorem prepareWorkdir_error
    (run : Runs perform others (prepareWorkdir vars) world trace (.error failure) final) :
    Told perform vars trace failure := by
  rcases run.of_bind with ⟨_, -, failed⟩ | ⟨found, _, _, _, rfl, asked, staging⟩
  · exact absurd failed not_call_error
  rcases call_ok asked with ⟨moved, rfl, isFound, rfl⟩
  cases found with
  | none =>
      cases staging
      exact .tempfile [] isFound.symm
  | some work =>
      refine Told.behind _ (told_bind (fun _ _ => change_error) ?_ staging)
      intro _ _ _ _ _ ended
      cases ended

theorem mem_itemised {a : Answer} {value : Variable} : value ∈ itemised a ↔
    a.networkFilter.truthy = true ∧ value = a.networkFilter ∨
      a.diskFilter.truthy = true ∧ value = a.diskFilter ∨
      a.diskFilesystem = .text "zfs".toList ∧ value = a.diskZfs ∨
      (a.diskFilesystem = .text "ext4".toList ∨ a.diskFilesystem = .text "xfs".toList) ∧
        value = a.diskLvm ∨
      a.diskFilesystem = .text "btrfs".toList ∧ value = a.diskBtrfs := by
  have one : ∀ {condition : Prop} [Decidable condition] {single : Variable},
      value ∈ (if condition then [single] else []) ↔ condition ∧ value = single := by
    intro condition _ single
    split_ifs with holds <;> simp [holds]
  simp only [itemised, List.mem_append, one, or_assoc]

/-- Behind the assertions the disk list and the disk filter have the shape the template needs. -/
theorem shaped_of_guards (guards : ∀ guard ∈ answerGuards, guard.holds vars = true) :
    vars.answer.diskList.length ≠ none ∧
      (vars.answer.diskFilter.truthy = true → vars.answer.diskFilter.isMapping = true) := by
  rcases exactlyOne_iff.mp (guards .oneMechanism (by decide))
    with ⟨list, filter, isList, isFilter, -⟩
  refine ⟨by simp [isList], fun truthy => ?_⟩
  rw [Variable.truthy_of_length isFilter] at truthy
  have passes := guards .diskFilter (by decide)
  simp only [Guard.holds, isFilter, Bool.or_eq_true, beq_iff_eq, Option.some.injEq,
    Bool.and_eq_true] at passes
  rcases passes with empty | ⟨⟨isMapping, -⟩, -⟩
  · exact absurd empty (bne_iff_ne.mp truthy)
  · exact isMapping

/-- Behind the assertions the template fails exactly for the shapes they do not ask about. -/
theorem answerToml_eq_none_iff_misshapen
    (guards : ∀ guard ∈ answerGuards, guard.holds vars = true) :
    answerToml vars.answer = none ↔ Misshapen vars.answer := by
  rcases shaped_of_guards guards with ⟨hasLength, mapping⟩
  rw [answerToml_eq_none_iff]
  constructor
  · rintro (⟨value, mem, shape⟩ | ⟨-, noLength⟩)
    · rcases mem_itemised.mp mem with ⟨isSet, rfl⟩ | ⟨isSet, rfl⟩ | ⟨chosen, rfl⟩ |
        ⟨chosen, rfl⟩ | ⟨chosen, rfl⟩
      · exact .networkFilter isSet shape
      · rw [mapping isSet] at shape
        cases shape
      · exact .zfs chosen shape
      · exact .lvm chosen shape
      · exact .btrfs chosen shape
    · exact absurd noLength hasLength
  · rintro (⟨isSet, shape⟩ | ⟨chosen, shape⟩ | ⟨chosen, shape⟩ | ⟨chosen, shape⟩)
    · exact .inl ⟨_, mem_itemised.mpr (.inl ⟨isSet, rfl⟩), shape⟩
    · exact .inl ⟨_, mem_itemised.mpr (.inr (.inr (.inl ⟨chosen, rfl⟩))), shape⟩
    · exact .inl ⟨_, mem_itemised.mpr (.inr (.inr (.inr (.inl ⟨chosen, rfl⟩)))), shape⟩
    · exact .inl ⟨_, mem_itemised.mpr (.inr (.inr (.inr (.inr ⟨chosen, rfl⟩)))), shape⟩

theorem renderAnswer_error (guards : ∀ guard ∈ answerGuards, guard.holds vars = true)
    (run : Runs perform others (renderAnswer vars work) world trace (.error failure) final) :
    Told perform vars trace failure := by
  unfold renderAnswer at run
  split at run
  case h_1 fails =>
    cases run
    exact .template ((answerToml_eq_none_iff_misshapen guards).mp fails)
  case h_2 content _ =>
    refine told_bind (fun _ _ => change_error) ?_ run
    intro _ _ _ _ _ probing
    refine told_bind (fun _ _ failed => absurd failed not_call_error) ?_ probing
    intro version _ _ _ _ deciding
    split_ifs at deciding with answers
    · rcases deciding.of_bind with ⟨_, -, failed⟩ | ⟨validation, _, _, _, rfl, asked, judging⟩
      · exact absurd failed not_call_error
      rcases call_ok asked with ⟨moved, rfl, rfl, rfl⟩
      rcases judging.of_bind with ⟨_, same, failed⟩ | ⟨_, _, _, _, rfl, -, ended⟩
      · cases same
        rcases require_error failed with ⟨rfl, invalid, rfl⟩
        exact .invalid [] (by simpa using invalid)
      · cases ended
    · cases deciding

theorem prepare_error {tooling : Tooling} (some : tooling ≠ .none)
    (run : Runs perform others (prepare vars work tooling) world trace (.error failure) final) :
    Told perform vars trace failure := by
  cases tooling with
  | none => exact absurd rfl some
  | vendor => exact command_error run
  | container =>
      have grub : ∀ {world final : σ} {trace : List (Moment Call σ)},
          Runs perform others (copyGrubCfg vars work) world trace (.error failure) final →
          Told perform vars trace failure := by
        intro world final trace copying
        unfold copyGrubCfg at copying
        split_ifs at copying
        · exact change_error copying
        · cases copying
      refine told_bind (fun _ _ => change_error) (fun _ _ _ _ _ copying => ?_) run
      refine told_bind (fun _ _ => change_error) (fun _ _ _ _ _ patching => ?_) copying
      refine told_bind (fun _ _ => grub) (fun _ _ _ _ _ scripting => ?_) patching
      refine told_bind (fun _ _ => change_error) (fun _ _ _ _ _ rebuilding => ?_) scripting
      exact told_bind (fun _ _ => command_error) (fun _ _ _ _ _ => change_error) rebuilding

theorem confirm_error
    (run : Runs perform others (confirm vars work) world trace (.error failure) final) :
    Told perform vars trace failure := by
  rcases run.of_bind with ⟨_, same, failed⟩ | ⟨output, _, _, _, rfl, asked, judging⟩
  · cases same
    exact stat_error failed
  rcases stat_ok asked with ⟨moved, rfl, isOutput⟩
  rcases judging.of_bind with ⟨_, same, failed⟩ | ⟨_, _, _, _, rfl, -, tidying⟩
  · cases same
    rcases require_error failed with ⟨rfl, missing, rfl⟩
    rw [Bool.and_eq_false_iff, decide_eq_false_iff_not, Nat.pos_iff_ne_zero, not_not] at missing
    exact .unwritten [] isOutput missing
  · refine Told.behind _ (Told.behind _ ?_)
    split_ifs at tidying
    · cases tidying
    · exact change_error tidying

theorem discoverTooling_none {version : ℤ}
    (run : Runs perform others (discoverTooling vars version) world trace (.ok .none) final) :
    version ≠ 0 ∧
      ∃ rc ≠ 0, Returned perform (versionArgv vars.containerRuntime) rc trace := by
  rcases run.of_bind_ok with ⟨rc, _, _, _, rfl, probing, decided⟩
  rcases call_ok probing with ⟨moved, rfl, rfl, rfl⟩
  dsimp only at decided
  split_ifs at decided with vendor container
  · cases decided
  · cases decided
  · exact ⟨fun zero => vendor ⟨zero, .inr container⟩, _, container, moved, by simp, rfl⟩

/-- What the tooling stands for, where there is one, and the refusal where there is none. -/
theorem tooling_error {version : ℤ} {rendered : List (Moment Call σ)}
    (isVersion : Returned perform (versionArgv vars.vendorToolPath) version rendered)
    (run : Runs perform others (discoverTooling vars version >>= fun tooling =>
      prepare vars work tooling >>= fun _ => confirm vars work)
      world trace (.error failure) final) :
    Told perform vars (rendered ++ trace) failure := by
  rcases run.of_bind with
    ⟨_, -, failed⟩ | ⟨tooling, _, discovered, rest, rfl, discovery, preparing⟩
  · rcases failed.of_bind with ⟨_, -, never⟩ | ⟨_, _, _, _, rfl, -, ended⟩
    · exact absurd never not_call_error
    · cases ended
  rcases Decidable.eq_or_ne tooling .none with rfl | some
  · rcases discoverTooling_none discovery with
      ⟨noVendor, rc, noRuntime, runtimeWorld, mem, isRuntime⟩
    rcases preparing.of_bind with ⟨_, same, refused⟩ | ⟨_, _, _, _, -, prepared, -⟩
    · cases same
      cases refused
      rcases isVersion with ⟨versionWorld, versionMem, isVersion⟩
      exact .noTooling noVendor noRuntime ⟨versionWorld, by simp [versionMem], isVersion⟩
        ⟨runtimeWorld, by simp [mem], isRuntime⟩
    · cases prepared
  · refine Told.behind _ (Told.behind _ ?_)
    exact told_bind (fun _ _ => prepare_error some) (fun _ _ _ _ _ => confirm_error) preparing

/-- A run that fails says why: an assertion about the variables that is the first one not to hold,
with nothing done so far but to look, the answer to the call made last, or the shape of a variable
that no assertion asks about. -/
theorem failure_explained
    (run : Runs perform others (main vars) world trace (.error failure) final) :
    Unmet vars trace failure ∨ Told perform vars trace failure := by
  rcases run.of_bind with ⟨_, same, failed⟩ | ⟨_, _, _, _, rfl, validation, working⟩
  · cases same
    exact validate_error failed
  rcases validate_ok validation with ⟨-, guards, -, -⟩
  refine .inr (Told.behind _ ?_)
  refine told_bind (fun _ _ => prepareWorkdir_error) ?_ working
  intro work _ _ _ _ rendering
  rcases rendering.of_bind with ⟨_, same, failed⟩ | ⟨version, _, _, _, rfl, rendition, discovering⟩
  · cases same
    exact renderAnswer_error guards failed
  rcases renderAnswer_ok rendition with ⟨_, -, -, isVersion, -⟩
  exact tooling_error isVersion discovering

end Stages

section Sample

/-- The sample run on a controller that has neither of the tools. -/
def bareController : (request : Call) → Bool → request.Answer × Bool
  | .stat path, isMade => (some ⟨path == sampleVars.source, true, true, 0⟩, isMade)
  | .tempfile _, isMade => (some "/iso/w".toList, isMade)
  | .command _, isMade => (2, isMade)
  | .change _, isMade => (true, isMade)

theorem bareController_runs :
    Runs bareController (fun _ _ => True) (main sampleVars) false
      (exec bareController (main sampleVars) false).1 (.error .noTooling)
      (exec bareController (main sampleVars) false).2.2 := by
  have failed : (exec bareController (main sampleVars) false).2.1 = .error .noTooling := rfl
  rw [← failed]
  exact exec_runs fun _ => trivial

theorem failure_explained_noTooling :
    Unmet sampleVars (exec bareController (main sampleVars) false).1 .noTooling ∨
      Told bareController sampleVars (exec bareController (main sampleVars) false).1 .noTooling :=
  failure_explained bareController_runs

end Sample

end Asmb8Ikvm.Iso

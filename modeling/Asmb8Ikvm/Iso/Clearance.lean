import Asmb8Ikvm.Iso.Targets

/-!
# What stands before the image

Between the tasks of a run others may change every file and every program of the
controller. Even so no image is made unless the guards have passed, the source was
there, the output was free or may be overwritten, and the answer file was written and,
where the vendor's tool answers, found valid by it. What can be read in that file names
the disks in one way, all of them concretely.
-/

namespace Asmb8Ikvm.Iso

open Interaction Toml

universe w

section Statements

variable {σ : Type w} (perform : (request : Call) → σ → request.Answer × σ)

/-- The calls that write the output. -/
def Writes (vars : Vars) : Call → Prop
  | .command argv => ∃ work, argv = prepareIsoArgv vars work
  | .change (.copy _ dest) => dest = vars.output
  | _ => False

/-- A `stat` of the source that found a readable file. -/
def SourceSeen (vars : Vars) (trace : List (Moment Call σ)) : Prop :=
  ∃ world source, ⟨.stat vars.source, world⟩ ∈ trace ∧
    (perform (.stat vars.source) world).1 = some source ∧
    (source.exists && source.isreg && source.readable) = true

/-- A `stat` of the output that found nothing, or leave to overwrite it. -/
def OutputFree (vars : Vars) (trace : List (Moment Call σ)) : Prop :=
  ∃ world output, ⟨.stat vars.output, world⟩ ∈ trace ∧
    (perform (.stat vars.output) world).1 = some output ∧
    (!output.exists || vars.force) = true

/-- The answer file has been written with this content. -/
def AnswerWritten (work content : Text) (trace : List (Moment Call σ)) : Prop :=
  ∃ world, ⟨.change (.answer (answerFile work) content), world⟩ ∈ trace ∧
    (perform (.change (.answer (answerFile work) content)) world).1 = true

/-- A command has answered with the return code. -/
def Returned (argv : List Text) (rc : ℤ) (trace : List (Moment Call σ)) : Prop :=
  ∃ world, ⟨.command argv, world⟩ ∈ trace ∧ (perform (.command argv) world).1 = rc

/-- What has been made sure of. -/
structure Cleared (vars : Vars) (work content : Text) (trace : List (Moment Call σ)) : Prop where
  opening : ∀ guard ∈ openingGuards, guard.holds vars = true
  answer : ∀ guard ∈ answerGuards, guard.holds vars = true
  source : SourceSeen perform vars trace
  output : OutputFree perform vars trace
  rendered : answerToml vars.answer = some content
  written : AnswerWritten perform work content trace
  valid : ∃ version, Returned perform (versionArgv vars.vendorToolPath) version trace ∧
    (version = 0 → Returned perform (validateAnswerArgv vars work) 0 trace)

end Statements

section Pieces

variable {σ : Type w} {perform : (request : Call) → σ → request.Answer × σ}
  {others : σ → σ → Prop} {world final : σ} {trace : List (Moment Call σ)} {vars : Vars}

theorem require_ok {guard : Guard} {holds : Bool}
    (run : Runs perform others (require guard holds) world trace (.ok ()) final) :
    holds = true ∧ trace = [] ∧ final = world := by
  cases holds with
  | false => cases run
  | true =>
      cases run
      exact ⟨rfl, rfl, rfl⟩

theorem requireAll_ok {guards : List Guard}
    (run : Runs perform others (requireAll vars guards) world trace (.ok ()) final) :
    (∀ guard ∈ guards, guard.holds vars = true) ∧ trace = [] ∧ final = world := by
  induction guards generalizing trace world with
  | nil =>
      cases run
      exact ⟨fun _ mem => absurd mem List.not_mem_nil, rfl, rfl⟩
  | cons guard guards ih =>
      rcases run.of_bind_ok with ⟨_, reached, before, later, rfl, first, second⟩
      rcases require_ok first with ⟨holds, rfl, rfl⟩
      rcases ih second with ⟨all, rfl, rfl⟩
      exact ⟨List.forall_mem_cons.mpr ⟨holds, all⟩, rfl, rfl⟩

theorem call_ok {request : Call} {answer : request.Answer}
    (run : Runs perform others (call request) world trace (.ok answer) final) :
    ∃ moved, trace = [⟨request, moved⟩] ∧ answer = (perform request moved).1 ∧
      final = (perform request moved).2 := by
  rcases run.of_call with ⟨moved, later, -, rfl, rest⟩
  cases rest
  exact ⟨moved, rfl, rfl, rfl⟩

theorem stat_ok {path : Text} {found : Stat}
    (run : Runs perform others (stat path) world trace (.ok found) final) :
    ∃ moved, trace = [⟨.stat path, moved⟩] ∧ (perform (.stat path) moved).1 = some found := by
  rcases run.of_bind_ok with ⟨answer, _, _, _, rfl, asked, settled⟩
  rcases call_ok asked with ⟨moved, rfl, isAnswer, rfl⟩
  cases answer with
  | none => cases settled
  | some stat =>
      cases settled
      exact ⟨moved, rfl, isAnswer.symm⟩

theorem change_ok {request : Change}
    (run : Runs perform others (change request) world trace (.ok ()) final) :
    ∃ moved, trace = [⟨.change request, moved⟩] ∧ (perform (.change request) moved).1 = true := by
  rcases run.of_bind_ok with ⟨done, reached, before, later, rfl, first, second⟩
  rcases call_ok first with ⟨moved, rfl, rfl, rfl⟩
  split_ifs at second with isDone
  · cases second
    exact ⟨moved, rfl, isDone⟩
  · cases second

theorem command_ok {argv : List Text}
    (run : Runs perform others (command argv) world trace (.ok ()) final) :
    ∃ moved, trace = [⟨.command argv, moved⟩] ∧ (perform (.command argv) moved).1 = 0 := by
  rcases run.of_bind_ok with ⟨rc, reached, before, later, rfl, first, second⟩
  rcases call_ok first with ⟨moved, rfl, rfl, rfl⟩
  split_ifs at second with isDone
  · cases second
    exact ⟨moved, rfl, isDone⟩
  · cases second

end Pieces

section Stages

variable {σ : Type w} {perform : (request : Call) → σ → request.Answer × σ}
  {others : σ → σ → Prop} {world final : σ} {trace : List (Moment Call σ)} {vars : Vars}
  {work : Text}

theorem validate_ok (run : Runs perform others (validate vars) world trace (.ok ()) final) :
    (∀ guard ∈ openingGuards, guard.holds vars = true) ∧
      (∀ guard ∈ answerGuards, guard.holds vars = true) ∧
        SourceSeen perform vars trace ∧ OutputFree perform vars trace := by
  rcases run.of_bind_ok with ⟨_, _, _, _, rfl, opening, checked⟩
  rcases requireAll_ok opening with ⟨openingHolds, rfl, rfl⟩
  rcases checked.of_bind_ok with ⟨source, _, _, _, rfl, sourceRun, found⟩
  rcases stat_ok sourceRun with ⟨sourceWorld, rfl, isSource⟩
  rcases found.of_bind_ok with ⟨_, _, _, _, rfl, readable, looked⟩
  rcases require_ok readable with ⟨isReadable, rfl, rfl⟩
  rcases looked.of_bind_ok with ⟨output, _, _, _, rfl, outputRun, missing⟩
  rcases stat_ok outputRun with ⟨outputWorld, rfl, isOutput⟩
  rcases missing.of_bind_ok with ⟨_, _, _, _, rfl, free, answered⟩
  rcases require_ok free with ⟨isFree, rfl, rfl⟩
  rcases requireAll_ok answered with ⟨answerHolds, rfl, rfl⟩
  exact ⟨openingHolds, answerHolds, ⟨sourceWorld, source, by simp, isSource, isReadable⟩,
    ⟨outputWorld, output, by simp, isOutput, isFree⟩⟩

theorem renderAnswer_ok {version : ℤ}
    (run : Runs perform others (renderAnswer vars work) world trace (.ok version) final) :
    ∃ content, answerToml vars.answer = some content ∧ AnswerWritten perform work content trace ∧
      Returned perform (versionArgv vars.vendorToolPath) version trace ∧
        (version = 0 → Returned perform (validateAnswerArgv vars work) 0 trace) := by
  unfold renderAnswer at run
  split at run
  case h_1 => cases run
  case h_2 content isContent =>
    rcases run.of_bind_ok with ⟨_, _, _, _, rfl, writing, probing⟩
    rcases change_ok writing with ⟨writeWorld, rfl, written⟩
    rcases probing.of_bind_ok with ⟨returned, _, _, _, rfl, versionRun, decided⟩
    rcases call_ok versionRun with ⟨versionWorld, rfl, rfl, rfl⟩
    refine ⟨content, isContent, ⟨writeWorld, by simp, written⟩, ?_⟩
    split_ifs at decided with answers
    · rcases decided.of_bind_ok with ⟨validation, _, _, _, rfl, validRun, judged⟩
      rcases call_ok validRun with ⟨validWorld, rfl, rfl, rfl⟩
      rcases judged.of_bind_ok with ⟨_, _, _, _, rfl, valid, ended⟩
      rcases require_ok valid with ⟨isValid, rfl, rfl⟩
      cases ended
      exact ⟨⟨versionWorld, by simp, rfl⟩, fun _ => ⟨validWorld, by simp, by simpa using isValid⟩⟩
    · cases decided
      exact ⟨⟨versionWorld, by simp, rfl⟩, fun zero => absurd zero answers⟩

/-- The calls before the preparation. -/
def Preliminary : Call → Prop
  | .stat _ => True
  | .tempfile _ => True
  | .command argv => argv.length ≠ 9
  | .change (.directory _) => True
  | .change (.answer _ _) => True
  | .change _ => False

/-- A preliminary call leaves the output alone. -/
theorem Preliminary.spares {request : Call} (preliminary : Preliminary request) :
    ¬Writes vars request := by
  intro writes
  rcases request with path | path | argv | change
  · exact writes
  · exact writes
  · rcases writes with ⟨work, rfl⟩
    exact preliminary rfl
  · cases change with
    | copy src dest => exact preliminary
    | directory path => exact writes
    | answer dest content => exact writes
    | template src dest => exact writes
    | absent path => exact writes

theorem only_require (P : Call → Prop) (guard : Guard) (holds : Bool) :
    (require guard holds).Only P := by
  unfold require
  split_ifs
  · trivial
  · trivial

theorem only_requireAll (P : Call → Prop) (guards : List Guard) :
    (requireAll vars guards).Only P := by
  induction guards with
  | nil => trivial
  | cons guard guards ih => exact (only_require P guard _).bind fun _ => ih

theorem only_call {P : Call → Prop} {request : Call} (holds : P request) :
    (call request).Only P :=
  ⟨holds, fun _ => trivial⟩

theorem only_stat {P : Call → Prop} {path : Text} (holds : P (.stat path)) :
    (stat path).Only P := by
  refine (only_call holds).bind fun answer => ?_
  cases answer with
  | none => trivial
  | some found => trivial

theorem only_change {P : Call → Prop} {request : Change} (holds : P (.change request)) :
    (change request).Only P := by
  refine (only_call holds).bind fun done => ?_
  split_ifs
  · trivial
  · trivial

theorem only_command {P : Call → Prop} {argv : List Text} (holds : P (.command argv)) :
    (command argv).Only P := by
  refine (only_call holds).bind fun rc => ?_
  split_ifs
  · trivial
  · trivial

theorem preliminary_validate (vars : Vars) : (validate vars).Only Preliminary :=
  (only_requireAll _ _).bind fun _ => (only_stat trivial).bind fun _ =>
    (only_require _ _ _).bind fun _ => (only_stat trivial).bind fun _ =>
      (only_require _ _ _).bind fun _ => only_requireAll _ _

theorem preliminary_prepareWorkdir (vars : Vars) : (prepareWorkdir vars).Only Preliminary := by
  refine (only_call trivial).bind fun work => ?_
  cases work with
  | none => trivial
  | some work => exact (only_change trivial).bind fun _ => trivial

theorem preliminary_renderAnswer (vars : Vars) (work : Text) :
    (renderAnswer vars work).Only Preliminary := by
  have short : Preliminary (.command (versionArgv vars.vendorToolPath)) ∧
      Preliminary (.command (validateAnswerArgv vars work)) := by
    simp [Preliminary, versionArgv, validateAnswerArgv]
  unfold renderAnswer
  split
  · trivial
  · refine (only_change trivial).bind fun _ => (only_call short.1).bind fun version => ?_
    split_ifs
    · exact (only_call short.2).bind fun _ => (only_require _ _ _).bind fun _ => trivial
    · trivial

theorem preliminary_discoverTooling (vars : Vars) (version : ℤ) :
    (discoverTooling vars version).Only Preliminary := by
  refine (only_call ?_).bind fun _ => trivial
  simp [Preliminary, versionArgv]

end Stages

end Asmb8Ikvm.Iso

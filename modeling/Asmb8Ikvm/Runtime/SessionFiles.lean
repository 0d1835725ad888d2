import Asmb8Ikvm.Lib.OrderedDict
import Asmb8Ikvm.Lib.Schedule

/-!
# The files of a session

The names `daemon_runtime.py`, `media_session.py` and `http_origin.py` build from
a session id, what a daemon and its module do to the files under these names, and
`list_session_ids`, which reads the ids back from the names. A name is glued from
the id and a suffix; two ids can own the same file only through the access log of
an HTTP origin, whose suffix ends like the one of the daemon log.
-/

namespace Asmb8Ikvm.Runtime

open Schedule

abbrev Name := List Char

abbrev Content := List UInt8

/-- The files under `runtime_dir`, with their contents. -/
abbrev Directory := OrderedDict Name Content

inductive DaemonKind where
  | media
  | httpOrigin
deriving DecidableEq, Repr

/-- A session id that names a file: not empty, and without a separator. -/
structure SessionId where
  chars : Name
  nonempty : chars ≠ []
  noSlash : '/' ∉ chars
deriving DecidableEq

def stateFilePath (sessionId : Name) : Name :=
  sessionId ++ ".json".toList

def logFilePath (sessionId : Name) : Name :=
  sessionId ++ ".log".toList

def readTraceLogPath (sessionId : Name) : Name :=
  sessionId ++ ".reads.jsonl".toList

def accessLogFilePath (sessionId : Name) : Name :=
  sessionId ++ "-access.log".toList

/-- `tmp_path` of `_write_state_atomic`, of the process with this pid. -/
def tmpPath (sessionId : Name) (pid : ℕ) : Name :=
  stateFilePath sessionId ++ '.' :: Nat.toDigits 10 pid ++ ".tmp".toList

/-- The log of what was asked of the session: the READs, or the HTTP requests. -/
def requestLogPath : DaemonKind → Name → Name
  | .media => readTraceLogPath
  | .httpOrigin => accessLogFilePath

def removePaths (paths : List Name) (dir : Directory) : Directory :=
  paths.foldl (fun dir path => dir.pop path) dir

def removeState (kind : DaemonKind) (sessionId : Name) (dir : Directory) : Directory :=
  removePaths
    [stateFilePath sessionId, logFilePath sessionId, requestLogPath kind sessionId] dir

/-- What is done to the files of a session, by its daemon or by the module. -/
inductive Operation where
  | openTmp (pid : ℕ)
  | writeTmp (pid : ℕ) (text : Content)
  | unlinkTmp (pid : ℕ)
  | replaceState (pid : ℕ)
  | writeStateIfAbsent (text : Content)
  | appendLog (text : Content)
  | appendRequest (text : Content)
  | removeState

/-- A text appended to a file that is created when it is not there. -/
def append (file : Name) (text : Content) (dir : Directory) : Directory :=
  dir.setLast file ((dir.get? file).getD [] ++ text)

def Operation.apply (kind : DaemonKind) (sessionId : Name) (dir : Directory) :
    Operation → Directory
  | .openTmp pid => dir.setLast (tmpPath sessionId pid) []
  | .writeTmp pid text => append (tmpPath sessionId pid) text dir
  | .unlinkTmp pid => dir.pop (tmpPath sessionId pid)
  | .replaceState pid =>
      match dir.get? (tmpPath sessionId pid) with
      | none => dir
      | some content =>
          (dir.pop (tmpPath sessionId pid)).setLast (stateFilePath sessionId) content
  | .writeStateIfAbsent text =>
      match dir.get? (stateFilePath sessionId) with
      | none => dir.setLast (stateFilePath sessionId) text
      | some _ => dir
  | .appendLog text => append (logFilePath sessionId) text dir
  | .appendRequest text => append (requestLogPath kind sessionId) text dir
  | .removeState => Runtime.removeState kind sessionId dir

/-- `PurePath.stem` of a name. -/
def stem (name : Name) : Name :=
  match name.reverse.dropWhile (· ≠ '.') with
  | [] => name
  | _ :: before => if before = [] ∨ name.getLast? = some '.' then name else before.reverse

def listSessionIds (dir : Directory) : List Name :=
  ((dir.entries.map Prod.fst).filter fun name => ".json".toList <:+ name).map stem

/-- The files of a session. -/
inductive Owned (kind : DaemonKind) (sessionId : Name) (file : Name) : Prop where
  | state (isFile : file = stateFilePath sessionId)
  | log (isFile : file = logFilePath sessionId)
  | request (isFile : file = requestLogPath kind sessionId)
  | tmp (pid : ℕ) (isFile : file = tmpPath sessionId pid)

/-- No file is a file of both sessions, and nothing done for one of them reaches a file of
the other. -/
structure Isolated (kind : DaemonKind) (first second : SessionId) : Prop where
  disjoint : ∀ file, Owned kind first.chars file → ¬ Owned kind second.chars file
  keepsSecond : ∀ (operation : Operation) dir file, Owned kind second.chars file →
    (operation.apply kind first.chars dir).get? file = dir.get? file
  keepsFirst : ∀ (operation : Operation) dir file, Owned kind first.chars file →
    (operation.apply kind second.chars dir).get? file = dir.get? file

/-- An operation for some session of the directory. -/
def step (kind : DaemonKind) (action : SessionId × Operation) (dir : Directory) :
    Option Directory :=
  some (action.2.apply kind action.1.chars dir)

/-- The directories that operations for any sessions of the kind lead to. -/
def Reachable (kind : DaemonKind) (dir : Directory) : Prop :=
  ∃ history, Run (step kind) (fun _ _ _ => True) OrderedDict.empty history dir

section Names

variable {kind : DaemonKind} {sessionId other file front suffix : Name} {pid otherPid : ℕ}

@[simp]
theorem getLast?_stateFilePath : (stateFilePath sessionId).getLast? = some 'n' := by
  simp [stateFilePath]

@[simp]
theorem getLast?_logFilePath : (logFilePath sessionId).getLast? = some 'g' := by
  simp [logFilePath]

@[simp]
theorem getLast?_tmpPath : (tmpPath sessionId pid).getLast? = some 'p' := by
  rw [tmpPath, List.getLast?_append]
  rfl

@[simp]
theorem getLast?_readTraceLogPath : (readTraceLogPath sessionId).getLast? = some 'l' := by
  simp [readTraceLogPath]

@[simp]
theorem getLast?_accessLogFilePath : (accessLogFilePath sessionId).getLast? = some 'g' := by
  simp [accessLogFilePath]

theorem dropWhile_reverse (noDot : '.' ∉ suffix) :
    (front ++ '.' :: suffix).reverse.dropWhile (· ≠ '.') = '.' :: front.reverse := by
  rw [List.reverse_append, List.reverse_cons, List.append_assoc, List.dropWhile_append_of_pos]
  · simp
  · intro c mem
    have notDot : c ≠ '.' := fun same => noDot (same ▸ List.mem_reverse.mp mem)
    simpa using notDot

theorem stem_stateFilePath (nonempty : sessionId ≠ []) :
    stem (stateFilePath sessionId) = sessionId := by
  have split : (sessionId ++ '.' :: "json".toList).reverse.dropWhile (· ≠ '.') =
      '.' :: sessionId.reverse := dropWhile_reverse (by decide)
  have whole : stateFilePath sessionId = sessionId ++ '.' :: "json".toList := by
    simp [stateFilePath]
  have reversed : (stateFilePath sessionId).reverse.dropWhile (· ≠ '.')
      = '.' :: sessionId.reverse := by
    rw [whole, split]
  have before : sessionId.reverse ≠ [] := by
    simpa using nonempty
  rw [stem, reversed]
  dsimp only
  rw [if_neg (by simp [before]), List.reverse_reverse]

theorem stateFilePath_injective : Function.Injective stateFilePath := by
  intro first second same
  exact List.append_cancel_right same

theorem tmpPath_injective (same : tmpPath sessionId pid = tmpPath other otherPid) :
    sessionId = other := by
  have noDot (pid : ℕ) : '.' ∉ Nat.toDigits 10 pid := by
    intro mem
    have isDigit := Nat.isDigit_of_mem_toDigits (by decide) (by decide) mem
    simp [Char.isDigit] at isDigit
  have noEnd := List.append_cancel_right same
  have split := congrArg (fun name => name.reverse.dropWhile (· ≠ '.')) noEnd
  simp only [dropWhile_reverse (noDot _), List.cons.injEq, List.reverse_inj, true_and] at split
  exact stateFilePath_injective split

theorem Owned.of_last_n (owned : Owned kind sessionId file) (last : file.getLast? = some 'n') :
    file = stateFilePath sessionId := by
  cases owned with
  | state isFile => exact isFile
  | log isFile => simp [isFile] at last
  | request isFile => cases kind <;> simp [isFile, requestLogPath] at last
  | tmp pid isFile => simp [isFile] at last

theorem Owned.of_last_g (owned : Owned kind sessionId file) (last : file.getLast? = some 'g') :
    file = logFilePath sessionId ∨ kind = .httpOrigin ∧ file = accessLogFilePath sessionId := by
  cases owned with
  | state isFile => simp [isFile] at last
  | log isFile => exact .inl isFile
  | request isFile =>
      cases kind with
      | media => simp [isFile, requestLogPath] at last
      | httpOrigin => exact .inr ⟨rfl, isFile⟩
  | tmp pid isFile => simp [isFile] at last

theorem Owned.of_last_l (owned : Owned kind sessionId file) (last : file.getLast? = some 'l') :
    file = readTraceLogPath sessionId := by
  cases owned with
  | state isFile => simp [isFile] at last
  | log isFile => simp [isFile] at last
  | request isFile =>
      cases kind with
      | media => exact isFile
      | httpOrigin => simp [isFile, requestLogPath] at last
  | tmp pid isFile => simp [isFile] at last

theorem Owned.of_last_p (owned : Owned kind sessionId file) (last : file.getLast? = some 'p') :
    ∃ pid, file = tmpPath sessionId pid := by
  cases owned with
  | state isFile => simp [isFile] at last
  | log isFile => simp [isFile] at last
  | request isFile => cases kind <;> simp [isFile, requestLogPath] at last
  | tmp pid isFile => exact ⟨pid, isFile⟩

theorem eq_access_of_log_eq (same : logFilePath sessionId = accessLogFilePath other) :
    sessionId = other ++ "-access".toList := by
  have whole : sessionId ++ ".log".toList = (other ++ "-access".toList) ++ ".log".toList := by
    simpa [logFilePath, accessLogFilePath] using same
  exact List.append_cancel_right whole

/-- Two ids with a file in common: the daemon log of the one is the access log of the other. -/
theorem eq_or_access_of_owned (ownedFirst : Owned kind sessionId file)
    (ownedSecond : Owned kind other file) :
    sessionId = other ∨ kind = .httpOrigin ∧
      (sessionId = other ++ "-access".toList ∨ other = sessionId ++ "-access".toList) := by
  cases ownedFirst with
  | state isFirst =>
      have isSecond := ownedSecond.of_last_n (by simp [isFirst])
      exact .inl (stateFilePath_injective (isFirst.symm.trans isSecond))
  | log isFirst =>
      rcases ownedSecond.of_last_g (by simp [isFirst]) with isSecond | ⟨isOrigin, isSecond⟩
      · exact .inl (List.append_cancel_right (isFirst.symm.trans isSecond))
      · exact .inr ⟨isOrigin, .inl (eq_access_of_log_eq (isFirst.symm.trans isSecond))⟩
  | request isFirst =>
      cases kind with
      | media =>
          have isSecond := ownedSecond.of_last_l (by simp [isFirst, requestLogPath])
          exact .inl (List.append_cancel_right (isFirst.symm.trans isSecond))
      | httpOrigin =>
          rcases ownedSecond.of_last_g (by simp [isFirst, requestLogPath])
            with isSecond | ⟨-, isSecond⟩
          · exact .inr ⟨rfl, .inr (eq_access_of_log_eq (isSecond.symm.trans isFirst))⟩
          · exact .inl (List.append_cancel_right (isFirst.symm.trans isSecond))
  | tmp pid isFirst =>
      rcases ownedSecond.of_last_p (by simp [isFirst]) with ⟨otherPid, isSecond⟩
      exact .inl (tmpPath_injective (isFirst.symm.trans isSecond))

/-- The daemon log of an id that ends like an access log is the access log of the rest. -/
theorem owned_access (isOrigin : kind = .httpOrigin)
    (isAccess : sessionId = other ++ "-access".toList) :
    Owned kind other (logFilePath sessionId) := by
  refine .request ?_
  simp [isOrigin, isAccess, requestLogPath, logFilePath, accessLogFilePath]

end Names

section Operations

variable {kind : DaemonKind} {sessionId file : Name} {dir : Directory} {id : SessionId}

theorem get?_append_of_ne {other : Name} {text : Content} (differs : file ≠ other) :
    (append other text dir).get? file = dir.get? file :=
  OrderedDict.get?_setLast_of_ne differs

theorem get?_removePaths_of_notMem {paths : List Name} (absent : file ∉ paths) :
    (removePaths paths dir).get? file = dir.get? file := by
  unfold removePaths
  induction paths generalizing dir with
  | nil => rfl
  | cons path paths ih =>
      rw [List.mem_cons, not_or] at absent
      rw [List.foldl_cons, ih absent.2, OrderedDict.get?_pop_of_ne absent.1]

theorem get?_removePaths_of_mem {paths : List Name} (mem : file ∈ paths) :
    (removePaths paths dir).get? file = none := by
  induction paths generalizing dir with
  | nil => exact absurd mem List.not_mem_nil
  | cons path paths ih =>
      by_cases later : file ∈ paths
      · exact ih later
      · have here := (List.mem_cons.mp mem).resolve_right later
        subst here
        have kept : (removePaths paths (dir.pop file)).get? file = (dir.pop file).get? file :=
          get?_removePaths_of_notMem later
        rw [OrderedDict.get?_pop_self] at kept
        exact kept

/-- The frame of an operation: a file of another session keeps its contents, or its absence. -/
theorem Operation.get?_apply_of_not_owned (operation : Operation)
    (notOwned : ¬ Owned kind sessionId file) :
    (operation.apply kind sessionId dir).get? file = dir.get? file := by
  have notState : file ≠ stateFilePath sessionId := fun isFile => notOwned (.state isFile)
  have notLog : file ≠ logFilePath sessionId := fun isFile => notOwned (.log isFile)
  have notRequest : file ≠ requestLogPath kind sessionId := fun isFile => notOwned (.request isFile)
  have notTmp (pid : ℕ) : file ≠ tmpPath sessionId pid := fun isFile => notOwned (.tmp pid isFile)
  cases operation with
  | openTmp pid => exact OrderedDict.get?_setLast_of_ne (notTmp pid)
  | writeTmp pid text => exact get?_append_of_ne (notTmp pid)
  | unlinkTmp pid => exact OrderedDict.get?_pop_of_ne (notTmp pid)
  | replaceState pid =>
      simp only [Operation.apply]
      split
      · rfl
      · rw [OrderedDict.get?_setLast_of_ne notState, OrderedDict.get?_pop_of_ne (notTmp pid)]
  | writeStateIfAbsent text =>
      simp only [Operation.apply]
      split
      · exact OrderedDict.get?_setLast_of_ne notState
      · rfl
  | appendLog text => exact get?_append_of_ne notLog
  | appendRequest text => exact get?_append_of_ne notRequest
  | removeState =>
      refine get?_removePaths_of_notMem ?_
      simp [notState, notLog, notRequest]

/-- Every file of a directory that is reached is a file of some session. -/
theorem Reachable.owned (reachable : Reachable kind dir) (isFile : (dir.get? file).isSome) :
    ∃ id : SessionId, Owned kind id.chars file := by
  rcases reachable with ⟨history, run⟩
  induction run generalizing file with
  | nil => cases isFile
  | snoc run allowed moves ih =>
      next state next action =>
        cases moves
        by_cases owned : Owned kind action.1.chars file
        · exact ⟨action.1, owned⟩
        · rw [action.2.get?_apply_of_not_owned owned] at isFile
          exact ih isFile

theorem mem_names : file ∈ dir.entries.map Prod.fst ↔ (dir.get? file).isSome := by
  constructor
  · intro mem
    rcases List.mem_map.mp mem with ⟨⟨name, content⟩, isEntry, rfl⟩
    rw [OrderedDict.get?_eq_some_iff.mpr isEntry]
    rfl
  · intro isFile
    rcases Option.isSome_iff_exists.mp isFile with ⟨content, found⟩
    exact List.mem_map.mpr ⟨_, OrderedDict.get?_eq_some_iff.mp found, rfl⟩

/-- The names the glob finds are the state files of sessions. -/
theorem Reachable.stateFile (reachable : Reachable kind dir) (isFile : (dir.get? file).isSome)
    (matched : ".json".toList <:+ file) : ∃ id : SessionId, file = stateFilePath id.chars := by
  rcases reachable.owned isFile with ⟨id, owned⟩
  rcases matched with ⟨front, rfl⟩
  exact ⟨id, owned.of_last_n (by simp)⟩

theorem mem_listSessionIds (reachable : Reachable kind dir) :
    sessionId ∈ listSessionIds dir ↔
      ∃ id : SessionId, id.chars = sessionId ∧ (dir.get? (stateFilePath sessionId)).isSome := by
  simp only [listSessionIds, List.mem_map (f := stem), List.mem_filter, mem_names,
    decide_eq_true_eq]
  constructor
  · rintro ⟨file, ⟨isFile, matched⟩, rfl⟩
    rcases reachable.stateFile isFile matched with ⟨id, rfl⟩
    rw [stem_stateFilePath id.nonempty]
    exact ⟨id, rfl, isFile⟩
  · rintro ⟨id, rfl, isFile⟩
    exact ⟨_, ⟨isFile, List.suffix_append _ _⟩, stem_stateFilePath id.nonempty⟩

theorem nodup_listSessionIds (reachable : Reachable kind dir) : (listSessionIds dir).Nodup := by
  refine List.Nodup.map_on ?_ (dir.nodup.filter _)
  intro first firstMem second secondMem same
  simp only [List.mem_filter, mem_names, decide_eq_true_eq] at firstMem secondMem
  rcases reachable.stateFile firstMem.1 firstMem.2 with ⟨firstId, rfl⟩
  rcases reachable.stateFile secondMem.1 secondMem.2 with ⟨secondId, rfl⟩
  rw [stem_stateFilePath firstId.nonempty, stem_stateFilePath secondId.nonempty] at same
  rw [same]

end Operations

/-- Neither id is the other with the mark of an access log. -/
def Unmarked (first second : SessionId) : Prop :=
  first.chars ≠ second.chars ++ "-access".toList ∧ second.chars ≠ first.chars ++ "-access".toList

theorem isolated_of_unmarked {kind : DaemonKind} {first second : SessionId}
    (different : first ≠ second) (unmarked : kind = .httpOrigin → Unmarked first second) :
    Isolated kind first second := by
  have disjoint (file : Name) (ownedFirst : Owned kind first.chars file)
      (ownedSecond : Owned kind second.chars file) : False := by
    rcases eq_or_access_of_owned ownedFirst ownedSecond with same | ⟨isOrigin, marked | marked⟩
    · rcases first with ⟨chars, nonempty, noSlash⟩
      rcases second with ⟨chars', nonempty', noSlash'⟩
      cases same
      exact different rfl
    · exact (unmarked isOrigin).1 marked
    · exact (unmarked isOrigin).2 marked
  exact {
    disjoint := disjoint
    keepsSecond := fun operation dir file owned =>
      operation.get?_apply_of_not_owned fun ownedFirst => disjoint file ownedFirst owned
    keepsFirst := fun operation dir file owned =>
      operation.get?_apply_of_not_owned fun ownedSecond => disjoint file owned ownedSecond }

theorem unmarked_of_isolated {kind : DaemonKind} {first second : SessionId}
    (isolated : Isolated kind first second) (isOrigin : kind = .httpOrigin) :
    Unmarked first second := by
  constructor
  · intro marked
    exact isolated.disjoint _ (.log rfl) (owned_access isOrigin marked)
  · intro marked
    exact isolated.disjoint _ (owned_access isOrigin marked) (.log rfl)

/-- Distinct sessions of one kind share no file and keep off each other's files exactly when
the kind is media, or neither id is the other with `-access` behind it. In every directory they
lead to, the ids listed are those whose state file is there, each once. -/
theorem isolated_iff_and_listed (kind : DaemonKind) {first second : SessionId}
    (different : first ≠ second) :
    (Isolated kind first second ↔ (kind = .httpOrigin → Unmarked first second)) ∧
      ∀ dir, Reachable kind dir → (listSessionIds dir).Nodup ∧
        ∀ name, name ∈ listSessionIds dir ↔
          ∃ id : SessionId, id.chars = name ∧ (dir.get? (stateFilePath name)).isSome :=
  ⟨⟨unmarked_of_isolated, isolated_of_unmarked different⟩, fun _ reachable =>
    ⟨nodup_listSessionIds reachable, fun _ => mem_listSessionIds reachable⟩⟩

/-- Two HTTP origins called `run` and `run-1`. -/
theorem isolated_run_run1 :
    Isolated .httpOrigin ⟨"run".toList, by decide, by decide⟩
      ⟨"run-1".toList, by decide, by decide⟩ :=
  (isolated_iff_and_listed .httpOrigin (by decide)).1.mpr fun _ => by
    unfold Unmarked
    decide

/-- The daemon log of the HTTP origin `run-access` is the access log of `run`. -/
theorem not_isolated_run_access :
    ¬ Isolated .httpOrigin ⟨"run".toList, by decide, by decide⟩
      ⟨"run-access".toList, by decide, by decide⟩ := by
  intro isolated
  have owned : Owned .httpOrigin "run".toList (logFilePath "run-access".toList) := .request rfl
  have kept := isolated.keepsFirst .removeState
    (append (logFilePath "run-access".toList) [0x47] OrderedDict.empty) _ owned
  revert kept
  decide

end Asmb8Ikvm.Runtime

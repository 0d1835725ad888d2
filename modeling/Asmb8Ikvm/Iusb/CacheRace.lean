import Asmb8Ikvm.Iusb.CacheInvariant
import Asmb8Ikvm.Lib.Schedule

/-!
# The window cache under concurrent readers and writers

Threads share one `Cache`. A window access is three atomic steps: the locked
lookup, the fetch outside the lock and the locked install. A write is two: the
backing write and the locked invalidation. A schedule is any interleaving of
such steps of any number of threads.

A fetched window goes out of date when a write to it is made and invalidated
before the window is installed: the invalidation finds nothing to drop, and the
install stores the old bytes. `Overtaken` describes this. Without it the cache
is coherent.
-/

namespace Asmb8Ikvm.Iusb

open Bytes

universe u v

/-- Where a thread stands between the atomic steps of its operation. -/
inductive Phase where
  | idle
  | missed (start : ℕ)
  | fetched (start : ℕ) (data : Bytes)
  | written (offset length : ℕ)
deriving DecidableEq, Repr

/-- The atomic steps of a thread. -/
inductive Action (ι : Type u) where
  | lookup (thread : ι) (start : ℕ)
  | fetch (thread : ι) (start : ℕ)
  | install (thread : ι) (start : ℕ)
  | write (thread : ι) (data : Bytes) (offset : ℕ)
  | invalidate (thread : ι)
deriving DecidableEq, Repr

/-- The thread that takes the step. -/
def Action.thread {ι : Type u} : Action ι → ι
  | .lookup thread _ | .fetch thread _ | .install thread _ | .write thread _ _
  | .invalidate thread => thread

/-- The cache and the threads that use it. -/
structure Shared (ι : Type u) (ρ : Type v) where
  cache : Cache ρ
  phase : ι → Phase

namespace Shared

variable {ι : Type u} [DecidableEq ι] {ρ : Type v} [Reader ρ]

/-- A fresh cache with idle threads. -/
def new (cache : Cache ρ) : Shared ι ρ where
  cache
  phase _ := .idle

/-- The state in which the cache and the phase of one thread have changed. -/
def set (cache : Cache ρ) (thread : ι) (phase : Phase) (s : Shared ι ρ) : Shared ι ρ where
  cache
  phase := Function.update s.phase thread phase

/-- One atomic step. A lookup is made for an aligned window of the medium, as `read_at`
does, and a step out of its turn is not enabled. A write whose backing fails is no step:
`write_at` raises before it invalidates. -/
def step : Action ι → Shared ι ρ → Option (Shared ι ρ)
  | .lookup thread start, s =>
      if s.phase thread = .idle ∧ s.cache.windowSize ∣ start ∧ start < s.cache.size then
        match s.cache.lookup start with
        | (some _, cache) => some (s.set cache thread .idle)
        | (none, cache) => some (s.set cache thread (.missed start))
      else none
  | .fetch thread start, s =>
      if s.phase thread = .missed start then
        match s.cache.fetch start with
        | (.ok data, cache) => some (s.set cache thread (.fetched start data))
        | (.error _, cache) => some (s.set cache thread .idle)
      else none
  | .install thread start, s =>
      match s.phase thread with
      | .fetched start' data =>
          if start = start' then
            some (s.set (s.cache.install start data).2 thread .idle)
          else none
      | _ => none
  | .write thread data offset, s =>
      if s.phase thread = .idle then
        match s.cache.w with
        | none => none
        | some write =>
            match write data offset s.cache.r with
            | (.ok _, r) => some (s.set { s.cache with r } thread (.written offset data.length))
            | (.error _, _) => none
      else none
  | .invalidate thread, s =>
      match s.phase thread with
      | .written offset length =>
          some (s.set (s.cache.invalidate offset length) thread .idle)
      | _ => none

/-- The bytes a step returns to the reader: those of a hit, or what the install keeps. -/
def handed : Action ι → Shared ι ρ → Option (ℕ × Bytes)
  | .lookup _ start, s => (s.cache.lookup start).1.map (start, ·)
  | .install thread start, s =>
      match s.phase thread with
      | .fetched _ data => some (start, (s.cache.install start data).1)
      | _ => none
  | _, _ => none

/-- No operation is in progress. -/
def Quiescent (s : Shared ι ρ) : Prop :=
  ∀ thread, s.phase thread = .idle

instance [Fintype ι] (s : Shared ι ρ) : Decidable s.Quiescent :=
  inferInstanceAs (Decidable (∀ thread, s.phase thread = .idle))

/-- A write to the window is between its backing write and its invalidation. -/
def Pending (s : Shared ι ρ) (key : ℕ) : Prop :=
  ∃ thread offset length, s.phase thread = .written offset length ∧
    Cache.Touches s.cache.windowSize offset length key

end Shared

/-- In these steps a write to the window has been made and not invalidated since. -/
def WriteOpen {ι : Type u} (windowSize key : ℕ) (steps : List (Action ι)) (writer : ι)
    (offset length : ℕ) : Prop :=
  ∃ before data after, steps = before ++ .write writer data offset :: after ∧
    data.length = length ∧ Cache.Touches windowSize offset length key ∧
    ∀ action ∈ after, action.thread ≠ writer

/-- In these steps a write to the window has been made and invalidated. -/
def Overtaken {ι : Type u} (windowSize key : ℕ) (steps : List (Action ι)) : Prop :=
  ∃ before writer offset length after,
    steps = before ++ .invalidate writer :: after ∧
      WriteOpen windowSize key before writer offset length

/-- The steps of other threads since the last step of `thread`, a fetch of the window. -/
def SinceFetch {ι : Type u} (thread : ι) (start : ℕ) (history steps : List (Action ι)) : Prop :=
  (∃ before, history = before ++ .fetch thread start :: steps) ∧
    ∀ action ∈ steps, action.thread ≠ thread

/-- A step does not store a window that has been overtaken since it was fetched. -/
def Timely {ι : Type u} {ρ : Type v} (history : List (Action ι)) :
    Action ι → Shared ι ρ → Prop
  | .install thread start, s =>
      s.cache.windows.get? start = none → ∀ steps, SinceFetch thread start history steps →
        ¬ Overtaken s.cache.windowSize start steps
  | _, _ => True

section Histories

variable {ι : Type u} {windowSize key offset length : ℕ} {steps history : List (Action ι)}
  {writer thread : ι}

theorem WriteOpen.append (opened : WriteOpen windowSize key steps writer offset length)
    (action : Action ι) (other : action.thread ≠ writer) :
    WriteOpen windowSize key (steps ++ [action]) writer offset length := by
  rcases opened with ⟨before, data, after, rfl, width, touches, quiet⟩
  refine ⟨before, data, after ++ [action], by simp, width, touches, ?_⟩
  intro later laterMem
  rcases List.mem_append.mp laterMem with old | new
  · exact quiet later old
  · rw [List.mem_singleton.mp new]
    exact other

theorem WriteOpen.touches (opened : WriteOpen windowSize key steps writer offset length) :
    Cache.Touches windowSize offset length key := by
  rcases opened with ⟨-, -, -, -, -, touches, -⟩
  exact touches

theorem Overtaken.append (overtaken : Overtaken windowSize key steps) (action : Action ι) :
    Overtaken windowSize key (steps ++ [action]) := by
  rcases overtaken with ⟨before, writer, offset, length, after, rfl, opened⟩
  exact ⟨before, writer, offset, length, after ++ [action], by simp, opened⟩

theorem SinceFetch.append (since : SinceFetch thread key history steps)
    (action : Action ι) (other : action.thread ≠ thread) :
    SinceFetch thread key (history ++ [action]) (steps ++ [action]) := by
  rcases since with ⟨⟨before, rfl⟩, quiet⟩
  refine ⟨⟨before, by simp⟩, ?_⟩
  intro later laterMem
  rcases List.mem_append.mp laterMem with old | new
  · exact quiet later old
  · rw [List.mem_singleton.mp new]
    exact other

end Histories

section Threads

variable {ι : Type u} [DecidableEq ι] {ρ : Type v} {s : Shared ι ρ} {thread : ι}
  {cache : Cache ρ} {phase : Phase}

/-- A phase without a backing write behind it. -/
def Phase.Unwritten : Phase → Prop
  | .written _ _ => False
  | _ => True

@[simp]
theorem Shared.set_cache : (s.set cache thread phase).cache = cache := rfl

@[simp]
theorem Shared.set_phase_self : (s.set cache thread phase).phase thread = phase := by
  simp [Shared.set]

theorem Shared.set_phase_of_ne {other : ι} (differs : other ≠ thread) :
    (s.set cache thread phase).phase other = s.phase other := by
  simp [Shared.set, differs]

theorem Shared.phase_of_set {other : ι} {target : Phase} (differs : phase ≠ target)
    (phaseIs : (s.set cache thread phase).phase other = target) :
    other ≠ thread ∧ s.phase other = target := by
  have another : other ≠ thread := by
    rintro rfl
    rw [Shared.set_phase_self] at phaseIs
    exact differs phaseIs
  exact ⟨another, by rwa [Shared.set_phase_of_ne another] at phaseIs⟩

theorem Shared.set_written_iff (before : (s.phase thread).Unwritten) (after : phase.Unwritten)
    {writer : ι} {offset length : ℕ} :
    (s.set cache thread phase).phase writer = .written offset length ↔
      s.phase writer = .written offset length := by
  by_cases same : writer = thread
  · subst same
    rw [Shared.set_phase_self]
    constructor
    · rintro rfl
      exact after.elim
    · intro written
      rw [written] at before
      exact before.elim
  · rw [Shared.set_phase_of_ne same]

theorem Shared.pending_set_iff (before : (s.phase thread).Unwritten) (after : phase.Unwritten)
    (windowSize : cache.windowSize = s.cache.windowSize) (key : ℕ) :
    (s.set cache thread phase).Pending key ↔ s.Pending key := by
  simp only [Shared.Pending, Shared.set_written_iff before after, Shared.set_cache, windowSize]

end Threads

section Invariant

variable {ι : Type u} [DecidableEq ι] {ρ : Type v} [Reader ρ] [LawfulReader ρ]

/-- The bytes a reader has fetched are current, or a write to the window is on its way,
or the fetch has been overtaken. -/
def FetchedWell (s : Shared ι ρ) (steps : List (Action ι)) (start : ℕ) (data : Bytes) : Prop :=
  data = s.cache.windowBytes start ∨ Overtaken s.cache.windowSize start steps ∨
    ∃ writer offset length, s.phase writer = .written offset length ∧
      WriteOpen s.cache.windowSize start steps writer offset length

/-- The invariant of a run: resident windows are current unless a write to them is
pending, and what readers hold between fetch and install is accounted for. -/
structure Coherent (write : Writer ρ) (history : List (Action ι)) (s : Shared ι ρ) : Prop where
  valid : s.cache.ValidExcept s.Pending
  writer : s.cache.w = some write
  missed {thread : ι} {start : ℕ} : s.phase thread = .missed start →
    s.cache.windowSize ∣ start ∧ start < s.cache.size
  fetched {thread : ι} {start : ℕ} {data : Bytes} : s.phase thread = .fetched start data →
    (s.cache.windowSize ∣ start ∧ start < s.cache.size) ∧
      ∃ steps, SinceFetch thread start history steps ∧ FetchedWell s steps start data

variable {write : Writer ρ} {history : List (Action ι)} {s next : Shared ι ρ} {thread : ι}
  {start : ℕ} {cache : Cache ρ} {phase : Phase} {action : Action ι}

/-- A step of a reader keeps the invariant when it keeps the medium and the cache, and
when the phase it leads to is accounted for. -/
theorem Coherent.reader_step (coherent : Coherent write history s) (acts : action.thread = thread)
    (before : (s.phase thread).Unwritten) (after : phase.Unwritten)
    (valid : cache.ValidExcept s.Pending) (same : s.cache.SameMedium cache)
    (missed : ∀ start, phase = .missed start →
      s.cache.windowSize ∣ start ∧ start < s.cache.size)
    (fetched : ∀ start data, phase = .fetched start data →
      (s.cache.windowSize ∣ start ∧ start < s.cache.size) ∧
        SinceFetch thread start (history ++ [action]) [] ∧
        data = s.cache.windowBytes start) :
    Coherent write (history ++ [action]) (s.set cache thread phase) where
  valid := by
    have pending : (s.set cache thread phase).Pending = s.Pending :=
      funext fun key => propext (Shared.pending_set_iff before after same.windowSize key)
    rw [pending]
    exact valid
  writer := same.writer.trans coherent.writer
  missed {other start'} phaseIs := by
    rw [Shared.set_cache, same.windowSize, same.size]
    by_cases own : other = thread
    · subst own
      rw [Shared.set_phase_self] at phaseIs
      exact missed start' phaseIs
    · rw [Shared.set_phase_of_ne own] at phaseIs
      exact coherent.missed phaseIs
  fetched {other start' data} phaseIs := by
    rw [Shared.set_cache, same.windowSize, same.size]
    by_cases own : other = thread
    · subst own
      rw [Shared.set_phase_self] at phaseIs
      rcases fetched start' data phaseIs with ⟨inMedium, since, current⟩
      exact ⟨inMedium, [], since, .inl (by rw [Shared.set_cache, same.windowBytes, current])⟩
    · rw [Shared.set_phase_of_ne own] at phaseIs
      rcases coherent.fetched phaseIs with ⟨inMedium, steps, since, well⟩
      refine ⟨inMedium, steps ++ [action], since.append action (by rw [acts]; exact Ne.symm own),
        ?_⟩
      rcases well with current | overtaken | ⟨writer, offset, length, written, opened⟩
      · exact .inl (by rw [Shared.set_cache, same.windowBytes, current])
      · refine .inr (.inl ?_)
        rw [Shared.set_cache, same.windowSize]
        exact overtaken.append action
      · refine .inr (.inr ⟨writer, offset, length,
          (Shared.set_written_iff before after).mpr written, ?_⟩)
        rw [Shared.set_cache, same.windowSize]
        refine opened.append action ?_
        rw [acts]
        rintro rfl
        rw [written] at before
        exact before

theorem Coherent.lookup_step (coherent : Coherent write history s)
    (moves : Shared.step (.lookup thread start) s = some next) :
    Coherent write (history ++ [.lookup thread start]) next := by
  simp only [Shared.step] at moves
  split at moves
  case isFalse => cases moves
  case isTrue enabled =>
    rcases enabled with ⟨idle, aligned, below⟩
    have before : (s.phase thread).Unwritten := by
      rw [idle]
      trivial
    rcases Cache.lookup_eq coherent.valid start with ⟨⟨valid, same⟩, -⟩
    split at moves
    case h_1 looked =>
      cases moves
      rw [looked] at valid same
      exact coherent.reader_step rfl before trivial valid same (by simp) (by simp)
    case h_2 looked =>
      cases moves
      rw [looked] at valid same
      refine coherent.reader_step rfl before trivial valid same ?_ (by simp)
      rintro start' ⟨⟩
      exact ⟨aligned, below⟩

theorem Coherent.fetch_step (coherent : Coherent write history s)
    (moves : Shared.step (.fetch thread start) s = some next) :
    Coherent write (history ++ [.fetch thread start]) next := by
  simp only [Shared.step] at moves
  split at moves
  case isFalse => cases moves
  case isTrue missed =>
    have before : (s.phase thread).Unwritten := by
      rw [missed]
      trivial
    rcases coherent.missed missed with ⟨aligned, below⟩
    rcases Cache.fetch_eq coherent.valid below with ⟨later, fetched, valid, same⟩
    rw [fetched] at moves
    cases moves
    refine coherent.reader_step rfl before trivial valid same (by simp) ?_
    rintro start' data ⟨⟩
    exact ⟨⟨aligned, below⟩, ⟨⟨history, rfl⟩, by simp⟩, rfl⟩

omit [DecidableEq ι] in
/-- What a timely reader installs is current, unless a write to the window is pending. -/
theorem Coherent.install_fresh (coherent : Coherent write history s) {data : Bytes}
    (timely : Timely history (.install thread start) s)
    (fetched : s.phase thread = .fetched start data)
    (absent : s.cache.windows.get? start = none) (due : ¬ s.Pending start) :
    data = s.cache.windowBytes start := by
  rcases coherent.fetched fetched with ⟨-, steps, since, well⟩
  rcases well with current | overtaken | ⟨writer, offset, length, written, opened⟩
  · exact current
  · exact absurd overtaken (timely absent steps since)
  · exact absurd ⟨writer, offset, length, written, opened.touches⟩ due

theorem Coherent.install_step (coherent : Coherent write history s)
    (timely : Timely history (.install thread start) s)
    (moves : Shared.step (.install thread start) s = some next) :
    Coherent write (history ++ [.install thread start]) next := by
  simp only [Shared.step] at moves
  split at moves
  case h_2 => cases moves
  case h_1 start' data fetched =>
    split at moves
    case isFalse => cases moves
    case isTrue same =>
      subst same
      cases moves
      have before : (s.phase thread).Unwritten := by
        rw [fetched]
        trivial
      rcases coherent.fetched fetched with ⟨⟨aligned, below⟩, -⟩
      rcases Cache.install_eq coherent.valid aligned below
        (coherent.install_fresh timely fetched) with ⟨-, valid, same⟩
      exact coherent.reader_step rfl before trivial valid same (by simp) (by simp)

theorem Coherent.write_step (lawful : LawfulWriter write) (coherent : Coherent write history s)
    {data : Bytes} {offset : ℕ}
    (moves : Shared.step (.write thread data offset) s = some next) :
    Coherent write (history ++ [.write thread data offset]) next := by
  simp only [Shared.step] at moves
  split at moves
  case isFalse => cases moves
  case isTrue idle =>
    split at moves
    case h_1 => cases moves
    case h_2 write' hasWriter =>
      obtain rfl : write' = write := Option.some.inj (hasWriter.symm.trans coherent.writer)
      split at moves
      case h_2 => cases moves
      case h_1 n r backing =>
        cases moves
        have others {writer : ι} {offset' length : ℕ}
            (written : s.phase writer = .written offset' length) : writer ≠ thread := by
          rintro rfl
          rw [idle] at written
          cases written
        refine ⟨?_, coherent.writer, ?_, ?_⟩
        · refine coherent.valid.backingWrite lawful backing ?_
          rintro key (⟨writer, offset', length, written, touches⟩ | touches)
          · exact ⟨writer, offset', length,
              (Shared.set_phase_of_ne (others written)).trans written, touches⟩
          · exact ⟨thread, offset, data.length, Shared.set_phase_self, touches⟩
        · intro other start phaseIs
          exact coherent.missed (Shared.phase_of_set (by simp) phaseIs).2
        · intro other start window phaseIs
          rcases Shared.phase_of_set (by simp) phaseIs with ⟨own, phaseIs⟩
          rcases coherent.fetched phaseIs with ⟨inMedium, steps, since, well⟩
          refine ⟨inMedium, steps ++ [.write thread data offset],
            since.append (.write thread data offset) (Ne.symm own), ?_⟩
          rcases well with current | overtaken | ⟨writer, offset', length, written, opened⟩
          · by_cases touches : Cache.Touches s.cache.windowSize offset data.length start
            · exact .inr (.inr ⟨thread, offset, data.length, Shared.set_phase_self,
                steps, data, [], rfl, rfl, touches, by simp⟩)
            · refine .inl ?_
              rw [Shared.set_cache,
                Cache.windowBytes_of_apart lawful coherent.valid.reader backing touches]
              exact current
          · exact .inr (.inl (overtaken.append _))
          · exact .inr (.inr ⟨writer, offset', length,
              (Shared.set_phase_of_ne (others written)).trans written,
              opened.append (.write thread data offset) (Ne.symm (others written))⟩)

theorem Coherent.invalidate_step (coherent : Coherent write history s)
    (moves : Shared.step (.invalidate thread) s = some next) :
    Coherent write (history ++ [.invalidate thread]) next := by
  simp only [Shared.step] at moves
  split at moves
  case h_2 => cases moves
  case h_1 offset length own =>
    cases moves
    refine ⟨?_, by simpa using coherent.writer, ?_, ?_⟩
    · refine coherent.valid.invalidated ?_
      rintro key ⟨writer, offset', length', written, touches⟩
      by_cases self : writer = thread
      · subst self
        rw [own] at written
        cases written
        exact .inr touches
      · exact .inl ⟨writer, offset', length', (Shared.set_phase_of_ne self).trans written,
          by simpa using touches⟩
    · intro other start phaseIs
      simpa using coherent.missed (Shared.phase_of_set (by simp) phaseIs).2
    · intro other start window phaseIs
      rcases Shared.phase_of_set (by simp) phaseIs with ⟨self, phaseIs⟩
      rcases coherent.fetched phaseIs with ⟨inMedium, steps, since, well⟩
      refine ⟨by simpa using inMedium, steps ++ [.invalidate thread],
        since.append (.invalidate thread) (Ne.symm self), ?_⟩
      rcases well with current | overtaken | ⟨writer, offset', length', written, opened⟩
      · exact .inl (by simpa [Cache.windowBytes] using current)
      · exact .inr (.inl (by simpa using overtaken.append _))
      · by_cases done : writer = thread
        · subst done
          exact .inr (.inl ⟨steps, writer, offset', length', [], rfl, by simpa using opened⟩)
        · exact .inr (.inr ⟨writer, offset', length',
            (Shared.set_phase_of_ne done).trans written,
            by simpa using opened.append (.invalidate thread) (Ne.symm done)⟩)

/-- Every timely step keeps the invariant. -/
theorem Coherent.step (lawful : LawfulWriter write) (coherent : Coherent write history s)
    (timely : Timely history action s) (moves : Shared.step action s = some next) :
    Coherent write (history ++ [action]) next := by
  cases action with
  | lookup => exact coherent.lookup_step moves
  | fetch => exact coherent.fetch_step moves
  | install => exact coherent.install_step timely moves
  | write => exact coherent.write_step lawful moves
  | invalidate => exact coherent.invalidate_step moves

/-- The bytes a timely step returns are current, unless a write to the window is pending. -/
theorem Coherent.handed_current (coherent : Coherent write history s)
    (timely : Timely history action s) (moves : Shared.step action s = some next)
    {data : Bytes} (handed : Shared.handed action s = some (start, data))
    (due : ¬ s.Pending start) : data = s.cache.windowBytes start := by
  cases action with
  | lookup other window =>
    rcases Option.map_eq_some_iff.mp handed with ⟨found, looked, ⟨⟩⟩
    exact (Cache.lookup_eq coherent.valid _).2 _ looked due
  | install other window =>
    simp only [Shared.step] at moves
    simp only [Shared.handed] at handed
    split at moves
    case h_2 => cases moves
    case h_1 start' fetchedData fetched =>
      split at moves
      case isFalse => cases moves
      case isTrue same =>
        subst same
        rw [fetched] at handed
        cases handed
        rcases coherent.fetched fetched with ⟨⟨aligned, below⟩, -⟩
        exact (Cache.install_eq coherent.valid aligned below
          (coherent.install_fresh timely fetched)).1 due
  | fetch | write | invalidate => cases handed

end Invariant

theorem Shared.Quiescent.not_pending {ι : Type u} {ρ : Type v} {s : Shared ι ρ}
    (quiescent : s.Quiescent) (key : ℕ) : ¬ s.Pending key := by
  rintro ⟨thread, offset, length, written, -⟩
  rw [quiescent thread] at written
  cases written

section Runs

variable {ι : Type u} [DecidableEq ι] {ρ : Type v} [Reader ρ] [LawfulReader ρ] {reader : ρ}
  {write : Writer ρ} {windowSize maxWindows : ℕ} {history : List (Action ι)} {s : Shared ι ρ}

theorem run_coherent (lawful : LawfulWriter write) (positive : 1 ≤ windowSize)
    (valid : LawfulReader.Valid reader)
    (run : Schedule.Run Shared.step Timely
      (Shared.new (Cache.new reader (some write) windowSize maxWindows)) history s) :
    Coherent write history s := by
  refine run.invariant ⟨?_, rfl, ?_, ?_⟩ fun coherent timely moves =>
    coherent.step lawful timely moves
  · exact Cache.ValidExcept.mono (fun _ => False.elim)
      (Cache.new_valid (some write) maxWindows positive valid)
  · intro thread start missed
    cases missed
  · intro thread start data fetched
    cases fetched

/-- In every run without an overtaken install a reader gets current bytes: when every
write to the window has been invalidated, what the next step returns for it is what the
backing holds, these writes included. -/
theorem handed_of_timely (lawful : LawfulWriter write) (positive : 1 ≤ windowSize)
    (valid : LawfulReader.Valid reader)
    (run : Schedule.Run Shared.step Timely
      (Shared.new (Cache.new reader (some write) windowSize maxWindows)) history s)
    {action : Action ι} {next : Shared ι ρ} (timely : Timely history action s)
    (moves : Shared.step action s = some next) {start : ℕ} {data : Bytes}
    (handed : Shared.handed action s = some (start, data)) (due : ¬ s.Pending start) :
    data = s.cache.windowBytes start :=
  (run_coherent lawful positive valid run).handed_current timely moves handed due

/-- In every run without an overtaken install the cache is coherent: a resident window
that no write in progress meets is current, and when no operation is in progress every
resident window is current and every read returns the current bytes of the backing. -/
theorem coherent_of_timely (lawful : LawfulWriter write) (positive : 1 ≤ windowSize)
    (valid : LawfulReader.Valid reader)
    (run : Schedule.Run Shared.step Timely
      (Shared.new (Cache.new reader (some write) windowSize maxWindows)) history s) :
    (∀ key data, (key, data) ∈ s.cache.windows.entries → ¬ s.Pending key →
      data = s.cache.windowBytes key) ∧
    (s.Quiescent →
      (∀ key data, (key, data) ∈ s.cache.windows.entries → data = s.cache.windowBytes key) ∧
      ∀ (n : ℤ) (offset : ℕ), (s.cache.readAt n offset).1 =
        .ok (slice (LawfulReader.content s.cache.r) offset n.toNat)) := by
  have coherent := run_coherent lawful positive valid run
  refine ⟨fun key data => coherent.valid.current, ?_⟩
  intro quiescent
  have current := Cache.ValidExcept.mono (fun key => quiescent.not_pending key) coherent.valid
  refine ⟨fun key data present => current.current present not_false, ?_⟩
  intro n offset
  rcases Cache.readAt_eq current n (Int.natCast_nonneg offset) with ⟨later, result, -, -⟩
  rw [result, Int.toNat_natCast]

end Runs

theorem Overtaken.invalidate_mem {ι : Type u} {windowSize key : ℕ} {steps : List (Action ι)}
    (overtaken : Overtaken windowSize key steps) : ∃ writer, .invalidate writer ∈ steps := by
  rcases overtaken with ⟨before, writer, offset, length, after, rfl, -⟩
  exact ⟨writer, by simp⟩

/-- One window of two bytes, a reader and a writer. -/
def twoThreads : Shared Bool FileReader :=
  .new (.new ⟨[1, 2]⟩ (some FileReader.splice) 2 1)

/-- The reader caches the window before the writer overwrites its first byte. -/
def inTurn : List (Action Bool) :=
  [.lookup true 0, .fetch true 0, .install true 0, .write false [9] 0, .invalidate false]

/-- The writer comes between the fetch and the install of the reader. -/
def overtaking : List (Action Bool) :=
  [.lookup true 0, .fetch true 0, .write false [9] 0, .invalidate false, .install true 0]

theorem inTurn_enabled : (Schedule.exec Shared.step inTurn twoThreads).isSome := by
  decide +kernel

theorem overtaking_enabled : (Schedule.exec Shared.step overtaking twoThreads).isSome := by
  decide +kernel

/-- After the threads have run in turn, a read returns the new bytes. -/
theorem coherent_inTurn :
    ∃ s, Schedule.Run Shared.step Timely twoThreads inTurn s ∧ s.Quiescent ∧
      LawfulReader.content s.cache.r = [9, 2] ∧ (s.cache.readAt 2 0).1 = .ok [9, 2] := by
  have timely (before : List (Action Bool)) (action : Action Bool) (after : List (Action Bool))
      (split : inTurn = before ++ action :: after) (s : Shared Bool FileReader) :
      Timely ([] ++ before) action s := by
    cases action with
    | install thread start =>
        have front : before = [.lookup true 0, .fetch true 0] := by
          simp only [inTurn, List.cons_eq_append_iff, reduceCtorEq, List.cons.injEq, false_and,
            and_false, false_or, exists_false, or_false, List.nil_eq_append_iff] at split
          rcases split with ⟨_, rfl, _, rfl, rfl, -⟩
          rfl
        rintro - steps ⟨⟨earlier, history⟩, -⟩ overtaken
        rcases overtaken.invalidate_mem with ⟨writer, invalidated⟩
        have mem : .invalidate writer ∈ [] ++ before := by
          rw [history]
          simp [invalidated]
        simp [front] at mem
    | lookup | fetch | write | invalidate => trivial
  have run := Schedule.Run.nil.exec timely (Option.some_get inTurn_enabled).symm
  have quiescent :
      ((Schedule.exec Shared.step inTurn twoThreads).get inTurn_enabled).Quiescent := by
    decide +kernel
  have content : LawfulReader.content
      ((Schedule.exec Shared.step inTurn twoThreads).get inTurn_enabled).cache.r = [9, 2] := by
    decide +kernel
  refine ⟨_, run, quiescent, content, ?_⟩
  have reads := ((coherent_of_timely FileReader.splice_lawful (by decide) trivial run).2
    quiescent).2 2 0
  rw [content] at reads
  exact reads

/-- After the overtaking, no operation is in progress, and the stale window stays. -/
theorem overtaking_incoherent :
    ∃ s, Schedule.Run Shared.step (fun _ _ _ => True) twoThreads overtaking s ∧ s.Quiescent ∧
      LawfulReader.content s.cache.r = [9, 2] ∧
      (0, [1, 2]) ∈ s.cache.windows.entries ∧ s.cache.windowBytes 0 = [9, 2] ∧
      (s.cache.readAt 2 0).1 = .ok [1, 2] := by
  refine ⟨(Schedule.exec Shared.step overtaking twoThreads).get overtaking_enabled, ?_, ?_, ?_, ?_,
    ?_, ?_⟩
  · exact Schedule.Run.nil.exec (fun _ _ _ _ _ => trivial)
      (Option.some_get overtaking_enabled).symm
  · decide +kernel
  · decide +kernel
  · decide +kernel
  · decide +kernel
  · decide +kernel

end Asmb8Ikvm.Iusb

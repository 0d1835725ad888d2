import Asmb8Ikvm.Iusb.Cache

/-!
# The representation invariant of the window cache

A reader stands for a byte string, its content. `Cache.Valid` says that every
resident window is aligned, lies below the size of the medium, holds the current
bytes of the backing and that no more windows are resident than allowed. Reading
through the cache and writing through it both keep that, and reads return the
content of the backing.

Between the backing write of a `write_at` and its invalidation some windows are
out of date. `Cache.ValidExcept` excuses them: each step of an operation is
specified for any set of excused windows.
-/

namespace Asmb8Ikvm.Iusb

open Bytes

universe u

/-- What a reader is for: in its valid states it stands for a byte string, and
reading returns the requested part of it without changing it. -/
class LawfulReader (ρ : Type u) [Reader ρ] where
  Valid : ρ → Prop
  content : ρ → Bytes
  size_eq {reader : ρ} : Valid reader → Reader.size reader = (content reader).length
  readAt_eq {reader : ρ} {n offset : ℤ} : Valid reader → 0 ≤ offset →
    ∃ later, Reader.readAt n offset reader =
        (.ok (slice (content reader) offset.toNat n.toNat), later) ∧
      Valid later ∧ content later = content reader

instance : LawfulReader FileReader where
  Valid _ := True
  content := FileReader.content
  size_eq _ := rfl
  readAt_eq {reader n offset} _ nonneg := by
    refine ⟨reader, ?_, trivial, rfl⟩
    by_cases empty : n ≤ 0
    · have none : n.toNat = 0 := by omega
      simp [Reader.readAt, empty, none, slice]
    · simp [Reader.readAt, empty, Int.not_lt.mpr nonneg]

/-- A writer that keeps the size of the medium and changes no byte outside the
range it is asked to write. -/
structure LawfulWriter {ρ : Type u} [Reader ρ] [LawfulReader ρ] (write : Writer ρ) : Prop where
  valid {data : Bytes} {offset : ℕ} {reader later : ρ} {n : ℤ} :
    LawfulReader.Valid reader → write data offset reader = (.ok n, later) →
      LawfulReader.Valid later
  length {data : Bytes} {offset : ℕ} {reader later : ρ} {n : ℤ} :
    LawfulReader.Valid reader → write data offset reader = (.ok n, later) →
      (LawfulReader.content later).length = (LawfulReader.content reader).length
  outside {data : Bytes} {offset : ℕ} {reader later : ρ} {n : ℤ} {i : ℕ} :
    LawfulReader.Valid reader → write data offset reader = (.ok n, later) →
      i < offset ∨ offset + data.length ≤ i →
      (LawfulReader.content later)[i]? = (LawfulReader.content reader)[i]?

namespace Cache

variable {ρ : Type u} [Reader ρ] [LawfulReader ρ]

/-- The current bytes of the window that starts at `key`. -/
def windowBytes (cache : Cache ρ) (key : ℕ) : Bytes :=
  slice (LawfulReader.content cache.r) key cache.windowSize

/-- The representation invariant, with the windows that need not be current. -/
structure ValidExcept (excused : ℕ → Prop) (cache : Cache ρ) : Prop where
  reader : LawfulReader.Valid cache.r
  windowSize_pos : 0 < cache.windowSize
  size_eq : cache.size = (LawfulReader.content cache.r).length
  aligned {key : ℕ} {data : Bytes} :
    (key, data) ∈ cache.windows.entries → cache.windowSize ∣ key ∧ key < cache.size
  current {key : ℕ} {data : Bytes} :
    (key, data) ∈ cache.windows.entries → ¬ excused key → data = cache.windowBytes key
  bounded : cache.windows.size ≤ cache.maxWindows

/-- The representation invariant: every resident window is current. -/
abbrev Valid (cache : Cache ρ) : Prop :=
  cache.ValidExcept fun _ => False

theorem ValidExcept.mono {cache : Cache ρ} {excused excused' : ℕ → Prop}
    (weaker : ∀ key, excused key → excused' key) (valid : cache.ValidExcept excused) :
    cache.ValidExcept excused' :=
  ⟨valid.reader, valid.windowSize_pos, valid.size_eq, valid.aligned,
    fun present due => valid.current present fun old => due (weaker _ old), valid.bounded⟩

/-- Two states of one cache over one medium with the same bytes. -/
structure SameMedium (cache later : Cache ρ) : Prop where
  content : LawfulReader.content later.r = LawfulReader.content cache.r
  writer : later.w = cache.w
  windowSize : later.windowSize = cache.windowSize
  maxWindows : later.maxWindows = cache.maxWindows
  size : later.size = cache.size

theorem SameMedium.refl (cache : Cache ρ) : cache.SameMedium cache :=
  ⟨rfl, rfl, rfl, rfl, rfl⟩

theorem SameMedium.trans {first second third : Cache ρ} (left : first.SameMedium second)
    (right : second.SameMedium third) : first.SameMedium third :=
  ⟨right.content.trans left.content, right.writer.trans left.writer,
    right.windowSize.trans left.windowSize, right.maxWindows.trans left.maxWindows,
    right.size.trans left.size⟩

theorem SameMedium.windowBytes {cache later : Cache ρ} (same : cache.SameMedium later) (key : ℕ) :
    later.windowBytes key = cache.windowBytes key := by
  rw [Cache.windowBytes, Cache.windowBytes, same.content, same.windowSize]

theorem new_valid {reader : ρ} (writer : Option (Writer ρ)) {windowSize : ℕ} (maxWindows : ℕ)
    (positive : 0 < windowSize) (valid : LawfulReader.Valid reader) :
    (new reader writer windowSize maxWindows).Valid where
  reader := valid
  windowSize_pos := positive
  size_eq := LawfulReader.size_eq valid
  aligned present := by cases present
  current present _ := by cases present
  bounded := Nat.zero_le _

variable {cache : Cache ρ} {excused : ℕ → Prop}

/-- Bookkeeping keeps validity: the windows may be replaced by others that satisfy
the invariant, and the counters by any. -/
theorem ValidExcept.withWindows (valid : cache.ValidExcept excused)
    {windows : OrderedDict ℕ Bytes} (hits misses fetched : ℕ)
    (entries : ∀ {key : ℕ} {data : Bytes}, (key, data) ∈ windows.entries →
      (cache.windowSize ∣ key ∧ key < cache.size) ∧
        (¬ excused key → data = cache.windowBytes key))
    (bounded : windows.size ≤ cache.maxWindows) :
    { cache with windows, hits, misses, fetched }.ValidExcept excused ∧
      cache.SameMedium { cache with windows, hits, misses, fetched } :=
  ⟨⟨valid.reader, valid.windowSize_pos, valid.size_eq, fun entry => (entries entry).1,
    fun entry => (entries entry).2, bounded⟩, ⟨rfl, rfl, rfl, rfl, rfl⟩⟩

theorem ValidExcept.entry (valid : cache.ValidExcept excused) {key : ℕ} {data : Bytes}
    (present : (key, data) ∈ cache.windows.entries) :
    (cache.windowSize ∣ key ∧ key < cache.size) ∧
      (¬ excused key → data = cache.windowBytes key) :=
  ⟨valid.aligned present, valid.current present⟩

theorem ValidExcept.moveToEnd (valid : cache.ValidExcept excused)
    (start hits misses fetched : ℕ) :
    { cache with windows := cache.windows.moveToEnd start, hits, misses, fetched }.ValidExcept
        excused ∧
      cache.SameMedium
        { cache with windows := cache.windows.moveToEnd start, hits, misses, fetched } :=
  valid.withWindows hits misses fetched
    (fun entry => valid.entry (OrderedDict.mem_moveToEnd.mp entry))
    (by rw [OrderedDict.size_moveToEnd]; exact valid.bounded)

theorem lookup_eq (valid : cache.ValidExcept excused) (start : ℕ) :
    ((cache.lookup start).2.ValidExcept excused ∧ cache.SameMedium (cache.lookup start).2) ∧
      ∀ data, (cache.lookup start).1 = some data → ¬ excused start →
        data = cache.windowBytes start := by
  unfold lookup
  cases located : cache.windows.get? start with
  | some found =>
      refine ⟨valid.moveToEnd start _ _ _, ?_⟩
      rintro data ⟨⟩
      exact valid.current (OrderedDict.get?_eq_some_iff.mp located)
  | none => exact ⟨valid.withWindows _ _ _ valid.entry valid.bounded, fun data hit => by cases hit⟩

/-- The number of bytes `_window` asks for, as the code computes it. -/
theorem fetch_length (valid : cache.ValidExcept excused) {start : ℕ}
    (below : start < cache.size) :
    slice (LawfulReader.content cache.r) start
      (if cache.size < start + cache.windowSize then (cache.size : ℤ) - start
        else cache.windowSize).toNat = cache.windowBytes start := by
  have size_eq := valid.size_eq
  split
  case isTrue past => rw [windowBytes, slice_of_le (by omega), slice_of_le (by omega)]
  case isFalse within => rfl

theorem fetch_eq (valid : cache.ValidExcept excused) {start : ℕ} (below : start < cache.size) :
    ∃ later, cache.fetch start = (.ok (cache.windowBytes start), later) ∧
      later.ValidExcept excused ∧ cache.SameMedium later := by
  obtain ⟨r, read, validReader, sameContent⟩ := LawfulReader.readAt_eq
    (n := if cache.size < start + cache.windowSize then (cache.size : ℤ) - start
      else cache.windowSize) valid.reader (Int.natCast_nonneg start)
  refine ⟨{ cache with r }, ?_, ?_, ⟨sameContent, rfl, rfl, rfl, rfl⟩⟩
  · simp only [fetch, read, Int.toNat_natCast, fetch_length valid below]
  · refine ⟨validReader, valid.windowSize_pos, ?_, valid.aligned, ?_, valid.bounded⟩
    · rw [sameContent]
      exact valid.size_eq
    · intro key data entry due
      rw [valid.current entry due, windowBytes, windowBytes, sameContent]

/-- Installing current bytes, or the bytes of an excused window, keeps the cache valid,
and what the reader gets is current unless the window is excused. -/
theorem install_eq (valid : cache.ValidExcept excused) {start : ℕ} {data : Bytes}
    (aligned : cache.windowSize ∣ start) (below : start < cache.size)
    (fresh : cache.windows.get? start = none → ¬ excused start →
      data = cache.windowBytes start) :
    (¬ excused start → (cache.install start data).1 = cache.windowBytes start) ∧
      (cache.install start data).2.ValidExcept excused ∧
      cache.SameMedium (cache.install start data).2 := by
  unfold install
  cases located : cache.windows.get? start with
  | some resident =>
      exact ⟨valid.current (OrderedDict.get?_eq_some_iff.mp located), valid.moveToEnd start _ _ _⟩
  | none =>
      refine ⟨fresh located, valid.withWindows _ _ _ ?_ OrderedDict.size_trim_le⟩
      intro key window entry
      rcases OrderedDict.mem_setLast.mp (OrderedDict.mem_of_mem_trim entry) with
        ⟨old, -⟩ | ⟨rfl, rfl⟩
      · exact valid.entry old
      · exact ⟨⟨aligned, below⟩, fresh located⟩

theorem window_eq (valid : cache.Valid) {start : ℕ} (aligned : cache.windowSize ∣ start)
    (below : start < cache.size) :
    ∃ later, cache.window start = (.ok (cache.windowBytes start), later) ∧
      later.Valid ∧ cache.SameMedium later := by
  rcases lookup_eq valid start with ⟨⟨lookedValid, lookedSame⟩, hit⟩
  unfold window
  rcases lookupResult : cache.lookup start with ⟨outcome, looked⟩
  rw [lookupResult] at lookedValid lookedSame hit
  cases outcome with
  | some data =>
      rw [← hit data rfl not_false]
      exact ⟨looked, rfl, lookedValid, lookedSame⟩
  | none =>
      have belowLooked : start < looked.size := by rw [lookedSame.size]; exact below
      rcases fetch_eq lookedValid belowLooked with ⟨fetched, fetchResult, fetchedValid, fetchedSame⟩
      have toFetched := lookedSame.trans fetchedSame
      have alignedFetched : fetched.windowSize ∣ start := by
        rw [toFetched.windowSize]
        exact aligned
      have belowFetched : start < fetched.size := by rw [toFetched.size]; exact below
      obtain ⟨installed, laterValid, laterSame⟩ :=
        install_eq fetchedValid alignedFetched belowFetched fun _ _ => rfl
      rw [lookedSame.windowBytes] at fetchResult
      rw [toFetched.windowBytes] at installed laterValid laterSame
      refine ⟨_, ?_, laterValid, toFetched.trans laterSame⟩
      simp only [fetchResult, installed not_false]

/-- The window loop appends the bytes of the backing between `pos` and `stop`. -/
theorem readLoop_eq {cache : Cache ρ} (valid : cache.Valid) {stop pos : ℕ} (out : Bytes)
    (ordered : pos ≤ stop) (within : stop ≤ cache.size) :
    ∃ later, cache.readLoop stop pos out =
        (.ok (out ++ slice (LawfulReader.content cache.r) pos (stop - pos)), later) ∧
      later.Valid ∧ cache.SameMedium later := by
  rw [readLoop]
  by_cases more : pos < stop
  · have inside := Nat.mod_lt pos valid.windowSize_pos
    have started := Nat.mod_le pos cache.windowSize
    have below : pos - pos % cache.windowSize < cache.size := by omega
    obtain ⟨windowed, windowResult, windowedValid, same⟩ :=
      window_eq valid (Nat.dvd_sub_mod pos) below
    have length : (cache.windowBytes (pos - pos % cache.windowSize)).length =
        min cache.windowSize (cache.size - (pos - pos % cache.windowSize)) := by
      rw [windowBytes, length_slice, ← valid.size_eq]
    have offset : pos - (pos - pos % cache.windowSize) = pos % cache.windowSize := by omega
    simp only [if_pos more, windowResult, offset, length]
    rw [if_neg (by omega), if_neg (by omega)]
    generalize chunkLen : min (min cache.windowSize
      (cache.size - (pos - pos % cache.windowSize)) - pos % cache.windowSize) (stop - pos) = count
    have piece : slice (cache.windowBytes (pos - pos % cache.windowSize))
        (pos % cache.windowSize) count = slice (LawfulReader.content cache.r) pos count := by
      rw [windowBytes, slice_slice (by omega)]
      congr 1
      omega
    have remaining : pos + count ≤ stop := by omega
    obtain ⟨later, loopResult, laterValid, laterSame⟩ := readLoop_eq windowedValid
      (out ++ slice (LawfulReader.content cache.r) pos count) remaining
      (by rw [same.size]; exact within)
    refine ⟨later, ?_, laterValid, same.trans laterSame⟩
    rw [piece, loopResult, same.content, List.append_assoc, slice_append_slice]
    congr 4
    omega
  · have done : stop - pos = 0 := by omega
    exact ⟨cache, by simp [more, done, slice], valid, .refl cache⟩
termination_by stop - pos

theorem readAt_eq (valid : cache.Valid) (n : ℤ) {offset : ℤ} (nonneg : 0 ≤ offset) :
    ∃ later, cache.readAt n offset =
        (.ok (slice (LawfulReader.content cache.r) offset.toNat n.toNat), later) ∧
      later.Valid ∧ cache.SameMedium later := by
  have size_eq := valid.size_eq
  rw [readAt, if_neg (Int.not_lt.mpr nonneg)]
  by_cases past : (cache.size : ℤ) ≤ offset
  · rw [if_pos past, slice, List.drop_eq_nil_of_le (by omega), List.take_nil]
    exact ⟨cache, rfl, valid, .refl cache⟩
  · rw [if_neg past]
    by_cases empty : n ≤ 0
    · have none : n.toNat = 0 := by omega
      rw [readLoop, if_neg (by omega), none]
      exact ⟨cache, rfl, valid, .refl cache⟩
    · have ordered : offset.toNat ≤ (min (offset + n) (cache.size : ℤ)).toNat := by omega
      rcases readLoop_eq valid [] ordered (by omega) with ⟨later, loopResult, laterValid, same⟩
      refine ⟨later, ?_, laterValid, same⟩
      rw [loopResult, List.nil_append]
      congr 2
      by_cases whole : offset + n ≤ cache.size
      · congr 1
        omega
      · rw [slice_of_le (by omega), slice_of_le (by omega)]

end Cache

/-- A valid cache stands for the byte string of the reader behind it. -/
instance {ρ : Type u} [Reader ρ] [LawfulReader ρ] : LawfulReader (Cache ρ) where
  Valid := Cache.Valid
  content cache := LawfulReader.content cache.r
  size_eq valid := valid.size_eq
  readAt_eq {cache n offset} valid nonneg := by
    rcases cache.readAt_eq valid n nonneg with ⟨later, result, laterValid, same⟩
    exact ⟨later, result, laterValid, same.content⟩

namespace Cache

theorem size_popWindows_le {windowSize stop w : ℕ} {windows : OrderedDict ℕ Bytes} :
    (popWindows windowSize stop w windows).size ≤ windows.size := by
  fun_induction popWindows windowSize stop w windows with
  | case1 w windows more ih => exact ih.trans OrderedDict.size_pop_le
  | case2 w windows done => exact le_rfl

theorem mem_of_mem_popWindows {windowSize stop w key : ℕ} {windows : OrderedDict ℕ Bytes}
    {data : Bytes} (present : (key, data) ∈ (popWindows windowSize stop w windows).entries) :
    (key, data) ∈ windows.entries := by
  fun_induction popWindows windowSize stop w windows with
  | case1 w windows more ih => exact (OrderedDict.mem_pop.mp (ih present)).1
  | case2 w windows done => exact present

/-- Of two multiples of the window size, the smaller ends where the larger begins, or
before. -/
theorem window_le_of_lt {windowSize key w : ℕ} (alignedKey : windowSize ∣ key)
    (alignedStart : windowSize ∣ w) (below : key < w) : key + windowSize ≤ w := by
  rcases alignedKey with ⟨i, rfl⟩
  rcases alignedStart with ⟨j, rfl⟩
  calc windowSize * i + windowSize = windowSize * (i + 1) := rfl
    _ ≤ windowSize * j := Nat.mul_le_mul_left windowSize (Nat.lt_of_mul_lt_mul_left below)

/-- The aligned windows that survive an invalidation lie below or above its range. -/
theorem popWindows_apart {windowSize stop w key : ℕ} {windows : OrderedDict ℕ Bytes} {data : Bytes}
    (positive : 0 < windowSize) (alignedKey : windowSize ∣ key) (alignedStart : windowSize ∣ w)
    (present : (key, data) ∈ (popWindows windowSize stop w windows).entries) :
    key + windowSize ≤ w ∨ stop ≤ key := by
  fun_induction popWindows windowSize stop w windows with
  | case1 w windows more ih =>
      have differs := (OrderedDict.mem_pop.mp (mem_of_mem_popWindows present)).2
      refine (ih (alignedStart.add dvd_rfl) present).imp_left fun below => ?_
      exact window_le_of_lt alignedKey alignedStart (by omega)
  | case2 w windows done =>
      by_cases below : key < w
      · exact .inl (window_le_of_lt alignedKey alignedStart below)
      · exact .inr (by omega)

variable {ρ : Type u} {cache : Cache ρ} {offset length key : ℕ} {data : Bytes}

@[simp]
theorem invalidate_r : (cache.invalidate offset length).r = cache.r := by
  unfold invalidate
  split <;> rfl

@[simp]
theorem invalidate_w : (cache.invalidate offset length).w = cache.w := by
  unfold invalidate
  split <;> rfl

@[simp]
theorem invalidate_windowSize : (cache.invalidate offset length).windowSize = cache.windowSize := by
  unfold invalidate
  split <;> rfl

@[simp]
theorem invalidate_maxWindows : (cache.invalidate offset length).maxWindows = cache.maxWindows := by
  unfold invalidate
  split <;> rfl

@[simp]
theorem invalidate_size : (cache.invalidate offset length).size = cache.size := by
  unfold invalidate
  split <;> rfl

theorem size_invalidate_le :
    (cache.invalidate offset length).windows.size ≤ cache.windows.size := by
  unfold invalidate
  split
  · exact le_rfl
  · exact size_popWindows_le

theorem mem_of_mem_invalidate
    (present : (key, data) ∈ (cache.invalidate offset length).windows.entries) :
    (key, data) ∈ cache.windows.entries := by
  unfold invalidate at present
  split at present
  · exact present
  · exact mem_of_mem_popWindows present

/-- The range of `length` bytes at `offset` meets the window that starts at `key`. -/
def Touches (windowSize offset length key : ℕ) : Prop :=
  length ≠ 0 ∧ offset < key + windowSize ∧ key < offset + length

theorem invalidate_apart (positive : 0 < cache.windowSize)
    (alignedKey : cache.windowSize ∣ key)
    (present : (key, data) ∈ (cache.invalidate offset length).windows.entries) :
    ¬ Touches cache.windowSize offset length key := by
  unfold invalidate at present
  rintro ⟨nonempty, after, before⟩
  split at present
  case isTrue empty => omega
  case isFalse =>
    have start : offset - offset % cache.windowSize ≤ offset := Nat.sub_le _ _
    have apart := popWindows_apart positive alignedKey (Nat.dvd_sub_mod offset) present
    omega

variable [Reader ρ] [LawfulReader ρ] {excused excused' : ℕ → Prop} {write : Writer ρ}

theorem windowBytes_of_apart (lawful : LawfulWriter write) {n : ℤ} {r : ρ}
    (validReader : LawfulReader.Valid cache.r)
    (written : write data offset cache.r = (.ok n, r))
    (apart : ¬ Touches cache.windowSize offset data.length key) :
    { cache with r }.windowBytes key = cache.windowBytes key := by
  apply slice_congr
  intro i lower upper
  dsimp only at upper
  refine lawful.outside validReader written ?_
  by_contra inside
  exact apart ⟨by omega, by omega, by omega⟩

/-- A backing write leaves the cache valid when the windows it meets are excused. -/
theorem ValidExcept.backingWrite (valid : cache.ValidExcept excused) (lawful : LawfulWriter write)
    {n : ℤ} {r : ρ} (written : write data offset cache.r = (.ok n, r))
    (excuses : ∀ key, excused key ∨ Touches cache.windowSize offset data.length key →
      excused' key) :
    { cache with r }.ValidExcept excused' where
  reader := lawful.valid valid.reader written
  windowSize_pos := valid.windowSize_pos
  size_eq := valid.size_eq.trans (lawful.length valid.reader written).symm
  aligned := valid.aligned
  current {key window} present due := by
    have apart : ¬ Touches cache.windowSize offset data.length key :=
      fun touches => due (excuses key (.inr touches))
    rw [windowBytes_of_apart lawful valid.reader written apart]
    exact valid.current present fun old => due (excuses key (.inl old))
  bounded := valid.bounded

/-- After an invalidation the windows it meets need no excuse. -/
theorem ValidExcept.invalidated (valid : cache.ValidExcept excused)
    (excuses : ∀ key, excused key →
      excused' key ∨ Touches cache.windowSize offset length key) :
    (cache.invalidate offset length).ValidExcept excused' := by
  refine ⟨by simpa using valid.reader, by simpa using valid.windowSize_pos,
    by simpa using valid.size_eq, ?_, ?_, ?_⟩
  · intro key window present
    simpa using valid.aligned (mem_of_mem_invalidate present)
  · intro key window present due
    have old := mem_of_mem_invalidate present
    have apart := invalidate_apart valid.windowSize_pos (valid.aligned old).1 present
    have current := valid.current old fun excusedKey =>
      (excuses key excusedKey).elim due apart
    simpa [windowBytes] using current
  · simpa using size_invalidate_le.trans valid.bounded

/-- A successful write keeps the cache valid, over a medium of the same size. -/
theorem writeAt_valid (lawful : LawfulWriter write)
    (hasWriter : cache.w = some write) (valid : cache.Valid) {n : ℤ} {later : Cache ρ}
    (written : cache.writeAt data offset = (.ok n, later)) :
    later.Valid ∧ later.w = some write ∧ later.windowSize = cache.windowSize ∧
      later.maxWindows = cache.maxWindows ∧ later.size = cache.size := by
  unfold writeAt at written
  split at written
  case h_1 => cases written
  case h_2 write' hasWriter' =>
    obtain rfl : write' = write := Option.some.inj (hasWriter'.symm.trans hasWriter)
    split at written
    case h_1 => cases written
    case h_2 n' r backing =>
      cases written
      have between : { cache with r }.ValidExcept (Touches cache.windowSize offset data.length) :=
        valid.backingWrite lawful backing fun key => Or.rec False.elim id
      exact ⟨between.invalidated fun key => .inr, by simpa using hasWriter, by simp, by simp,
        by simp⟩

/-- The states of a cache after any sequence of reads and successful writes. -/
inductive Reachable (initial : Cache ρ) : Cache ρ → Prop where
  | initial : Reachable initial initial
  | read {cache : Cache ρ} (n : ℤ) (offset : ℕ) (reached : Reachable initial cache) :
      Reachable initial (cache.readAt n offset).2
  | write {cache later : Cache ρ} {data : Bytes} {offset : ℕ} {n : ℤ}
      (reached : Reachable initial cache)
      (written : cache.writeAt data offset = (.ok n, later)) : Reachable initial later

/-- Every reachable state is valid and has the parameters of the initial one. -/
theorem Reachable.valid {initial : Cache ρ} {write : Writer ρ} (lawful : LawfulWriter write)
    (hasWriter : initial.w = some write) (valid : initial.Valid)
    (reached : Reachable initial cache) :
    cache.Valid ∧ cache.w = some write ∧ cache.windowSize = initial.windowSize ∧
      cache.maxWindows = initial.maxWindows ∧ cache.size = initial.size := by
  induction reached with
  | initial => exact ⟨valid, hasWriter, rfl, rfl, rfl⟩
  | @read cache n offset _ ih =>
      rcases ih with ⟨cacheValid, writer, windowSize, maxWindows, size⟩
      obtain ⟨later, result, laterValid, same⟩ :=
        cache.readAt_eq cacheValid n (Int.natCast_nonneg offset)
      rw [result]
      exact ⟨laterValid, same.writer.trans writer, same.windowSize.trans windowSize,
        same.maxWindows.trans maxWindows, same.size.trans size⟩
  | write _ written ih =>
      rcases ih with ⟨cacheValid, writer, windowSize, maxWindows, size⟩
      obtain ⟨laterValid, writer', windowSize', maxWindows', size'⟩ :=
        writeAt_valid lawful writer cacheValid written
      exact ⟨laterValid, writer', windowSize'.trans windowSize, maxWindows'.trans maxWindows,
        size'.trans size⟩

/-- The cache keeps its representation invariant under every sequential mix of reads
and successful writes: resident keys are multiples of the window size below the
medium size, resident windows hold the current bytes of the backing, their number is
bounded, and reads return the current bytes of the backing. -/
theorem reachable_represents {reader : ρ} {write : Writer ρ} {windowSize maxWindows : ℕ}
    (lawful : LawfulWriter write) (positive : 1 ≤ windowSize)
    (valid : LawfulReader.Valid reader)
    (reached : Reachable (new reader (some write) windowSize maxWindows) cache) :
    (∀ key data, (key, data) ∈ cache.windows.entries →
      windowSize ∣ key ∧ key < Reader.size reader ∧
        data = slice (LawfulReader.content cache.r) key
          (min (key + windowSize) (Reader.size reader) - key)) ∧
    cache.windows.size ≤ maxWindows ∧
    (LawfulReader.content cache.r).length = Reader.size reader ∧
    ∀ (n : ℤ) (offset : ℕ), (cache.readAt n offset).1 =
      .ok (slice (LawfulReader.content cache.r) offset
        (min (offset + n) (Reader.size reader) - offset).toNat) := by
  obtain ⟨cacheValid, -, rfl, rfl, size_eq⟩ :=
    reached.valid lawful rfl (new_valid (some write) maxWindows positive valid)
  have size : cache.size = Reader.size reader := size_eq
  have length : (LawfulReader.content cache.r).length = Reader.size reader := by
    rw [← size, cacheValid.size_eq]
  refine ⟨?_, cacheValid.bounded, length, ?_⟩
  · intro key data present
    rcases cacheValid.aligned present with ⟨aligned, below⟩
    refine ⟨aligned, by omega, ?_⟩
    rw [cacheValid.current present not_false, windowBytes]
    by_cases past : Reader.size reader ≤ key + cache.windowSize
    · rw [slice_of_le (by omega), slice_of_le (by omega)]
    · congr 1
      omega
  · intro n offset
    obtain ⟨later, result, -, -⟩ :=
      cache.readAt_eq cacheValid n (Int.natCast_nonneg offset)
    rw [result, Int.toNat_natCast]
    dsimp only
    congr 1
    by_cases past : (Reader.size reader : ℤ) ≤ offset + n
    · by_cases beyond : Reader.size reader ≤ offset
      · rw [slice, slice, List.drop_eq_nil_of_le (by omega), List.take_nil, List.take_nil]
      · rw [slice_of_le (by omega), slice_of_le (by omega)]
    · congr 1
      omega

end Cache

/-- A writer of a file of fixed size: bytes beyond its end are dropped. -/
def FileReader.splice : Writer FileReader := fun data offset file =>
  let written := data.take (file.content.length - offset)
  (.ok written.length, ⟨overwrite file.content offset written⟩)

theorem FileReader.splice_lawful : LawfulWriter FileReader.splice where
  valid _ _ := trivial
  length {data offset reader later n} _ written := by
    cases written
    simp only [LawfulReader.content, overwrite, List.length_append, List.length_take,
      List.length_drop]
    omega
  outside {data offset reader later n i} _ written apart := by
    cases written
    simp only [LawfulReader.content, overwrite, List.getElem?_append, List.length_append,
      List.length_take, List.getElem?_take, List.getElem?_drop]
    by_cases before : i < offset
    · by_cases inFile : i < reader.content.length
      · rw [if_pos (by omega), if_pos (by omega), if_pos before]
      · rw [if_neg (by omega), List.getElem?_eq_none (by omega),
          List.getElem?_eq_none (by omega)]
    · rw [if_neg (by omega)]
      by_cases inFile : i < reader.content.length
      · congr 1
        omega
      · rw [List.getElem?_eq_none (by omega), List.getElem?_eq_none (by omega)]

namespace Cache

/-- A byte is written over a cached window, and the next read sees it. -/
theorem reachable_represents_splice :
    ∃ cache, Reachable (new (⟨[1, 2, 3, 4, 5]⟩ : FileReader) (some FileReader.splice) 2 1) cache ∧
      LawfulReader.content cache.r = [1, 9, 3, 4, 5] ∧ cache.windows.size ≤ 1 ∧
      (cache.readAt 3 0).1 = .ok [1, 9, 3] := by
  let initial := new (⟨[1, 2, 3, 4, 5]⟩ : FileReader) (some FileReader.splice) 2 1
  let warm := (initial.readAt 5 0).2
  have warmReached : Reachable initial warm := Reachable.initial.read 5 0
  have written : warm.writeAt [9] 1 = (.ok 1, (warm.writeAt [9] 1).2) :=
    Prod.ext (by decide +kernel) rfl
  have reached : Reachable initial (warm.writeAt [9] 1).2 := warmReached.write written
  obtain ⟨-, bounded, -, reads⟩ :=
    reachable_represents FileReader.splice_lawful (by decide) trivial reached
  have content : LawfulReader.content (warm.writeAt [9] 1).2.r = [1, 9, 3, 4, 5] := by
    decide +kernel
  refine ⟨_, reached, content, bounded, ?_⟩
  have result := reads 3 0
  rw [content] at result
  exact result

end Cache

end Asmb8Ikvm.Iusb
